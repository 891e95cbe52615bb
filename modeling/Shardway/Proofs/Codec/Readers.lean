import Shardway.Codec.Layout
import Shardway.Proofs.Text.Utf8
import Mathlib.Algebra.Group.Nat.Defs

/-!
# Readers

What is written of a value is read back as that value, whatever follows it, and what is read at the
front of some bytes does not depend on how these go on. Both hold of one reader after the other when
they hold of each.
-/

namespace Shardway.Codec

variable {α β : Type}

/-! ## One reader after the other -/

/-- Takes nothing. -/
def give (v : α) : Bytes → Result α := fun bytes => .ok (v, bytes)

def refuse (e : Flaw) : Bytes → Result α := fun _ => .error e

def readByte : Bytes → Result UInt8
  | [] => .error .truncated
  | b :: rest => .ok (b, rest)

/-- Goes on with what the first reader has left. -/
def andThen (f : Bytes → Result α) (g : α → Bytes → Result β) : Bytes → Result β := fun bytes =>
  match f bytes with
  | .error e => .error e
  | .ok (v, rest) => g v rest

/-- The bytes are read as the value, whatever follows them. -/
def Reads (f : Bytes → Result α) (bytes : Bytes) (v : α) : Prop :=
  ∀ rest, f (bytes ++ rest) = .ok (v, rest)

/-- What `f` reads of some bytes, `g` reads of those with more behind them. -/
def Prolongs (f g : Bytes → Result α) : Prop :=
  ∀ bytes v rest more, f bytes = .ok (v, rest) → g (bytes ++ more) = .ok (v, rest ++ more)

/-- What is read does not depend on how the bytes go on. -/
abbrev Local (f : Bytes → Result α) : Prop := Prolongs f f

variable {f f' : Bytes → Result α} {g g' : α → Bytes → Result β} {a b : Bytes} {v : α} {w : β}

theorem Reads.give (v : α) : Reads (give v) [] v := fun _ => rfl

theorem Reads.readByte (x : UInt8) : Reads readByte [x] x := fun _ => rfl

theorem Reads.andThen (hf : Reads f a v) (hg : Reads (g v) b w) :
    Reads (andThen f g) (a ++ b) w := by
  intro rest
  rw [Codec.andThen, List.append_assoc, hf]
  exact hg rest

/-- The second reader only makes something of what the first has read. -/
theorem Reads.andGive {h : α → β} (hf : Reads f a v) :
    Reads (Codec.andThen f fun x => Codec.give (h x)) a (h v) := by
  have hg := hf.andThen (g := fun x => Codec.give (h x)) (Reads.give (h v))
  rwa [List.append_nil] at hg

theorem Local.give (v : α) : Local (Codec.give v) := by
  intro bytes _ rest more h
  cases h
  rfl

theorem Local.refuse (e : Flaw) : Local (refuse e : Bytes → Result α) :=
  fun _ _ _ _ h => by cases h

theorem Local.readByte : Local readByte := by
  intro bytes x rest more h
  cases bytes with
  | nil => cases h
  | cons y r =>
      cases h
      rfl

theorem Prolongs.andThen (hf : Prolongs f f') (hg : ∀ v, Prolongs (g v) (g' v)) :
    Prolongs (andThen f g) (andThen f' g') := by
  intro bytes w rest more h
  unfold Codec.andThen at h ⊢
  cases hfb : f bytes with
  | error e =>
      rw [hfb] at h
      cases h
  | ok p =>
      rw [hfb] at h
      rw [hf bytes p.1 p.2 more hfb]
      exact hg p.1 p.2 w rest more h

theorem Prolongs.andGive {h : α → β} (hf : Prolongs f f') :
    Prolongs (Codec.andThen f fun x => Codec.give (h x))
      (Codec.andThen f' fun x => Codec.give (h x)) :=
  hf.andThen fun v => Local.give (h v)

/-- Of the bytes that are read as a value nothing at the end can be spared. -/
theorem Reads.eq_of_isPrefix {bytes rest : Bytes} {u : α} (hv : Reads f bytes v) (hl : Local f)
    (ha : a <+: bytes) (h : f a = .ok (u, rest)) : a = bytes := by
  obtain ⟨more, rfl⟩ := ha
  have hread := hv []
  rw [List.append_nil, hl a u rest more h] at hread
  have hend : rest ++ more = [] := congrArg Prod.snd (Except.ok.inj hread)
  rw [(List.append_eq_nil_iff.mp hend).2, List.append_nil]

/-! ## Numbers -/

theorem Reads.littleEndian (count n : Nat) (h : n < 256 ^ count) :
    Reads (readLittleEndian count) (littleEndian count n) n := by
  induction count generalizing n with
  | zero =>
      have hn : n = 0 := by simpa using h
      subst hn
      exact Reads.give 0
  | succ count ih =>
      have hdiv : n / 256 < 256 ^ count := by
        rw [Nat.pow_succ] at h
        omega
      have hlow : (UInt8.ofNat (n % 256)).toNat = n % 256 := by
        rw [UInt8.toNat_ofNat']
        omega
      intro rest
      rw [Codec.littleEndian, List.cons_append, readLittleEndian, ih _ hdiv rest]
      simp only [hlow, Except.ok.injEq, Prod.mk.injEq, and_true]
      omega

theorem Local.readLittleEndian (count : Nat) : Local (readLittleEndian count) := by
  induction count with
  | zero => exact Local.give 0
  | succ count ih =>
      have hstep : Codec.readLittleEndian (count + 1) = andThen Codec.readByte fun x =>
          andThen (Codec.readLittleEndian count) fun n => Codec.give (x.toNat + 256 * n) := by
        funext bytes
        cases bytes with
        | nil => rfl
        | cons x r =>
            rw [Codec.readLittleEndian]
            simp only [andThen, Codec.readByte]
            cases Codec.readLittleEndian count r <;> rfl
      rw [hstep]
      exact Local.readByte.andThen fun x => ih.andGive

/-- A number of so many bytes, given by its bits. -/
theorem Reads.bits (count : Nat) (x : BitVec (8 * count)) :
    Reads (Codec.andThen (readLittleEndian count) fun n => Codec.give (BitVec.ofNat (8 * count) n))
      (Codec.littleEndian count x.toNat) x := by
  have hlt : x.toNat < 256 ^ count := by
    have h := x.isLt
    rwa [Nat.pow_mul] at h
  have hof : BitVec.ofNat (8 * count) x.toNat = x := by
    rw [BitVec.ofNat_toNat, BitVec.setWidth_eq]
  have h := (Reads.littleEndian count x.toNat hlt).andGive (h := BitVec.ofNat (8 * count))
  rwa [hof] at h

theorem Reads.length {n : Nat} (h : n < 2 ^ 64) : Reads (readLittleEndian 8) (writeLength n) n :=
  Reads.littleEndian 8 n (by omega)

/-! ## Characters and texts -/

theorem Reads.char (c : Char) : Reads readChar (Text.Utf8.encodeChar c) c := by
  obtain ⟨x, r, hc, hh⟩ := Text.Utf8.head_encodeChar c
  intro rest
  rw [hc, List.cons_append, readChar, hh]

theorem Local.readChar : Local readChar := by
  intro bytes c rest more h
  cases bytes with
  | nil => cases h
  | cons x r =>
      rw [List.cons_append]
      simp only [Codec.readChar] at h ⊢
      cases hh : Text.Utf8.head x r with
      | char d r₁ =>
          rw [hh] at h
          cases h
          rw [Text.Utf8.head_append hh]
      | bad size r₁ =>
          rw [hh] at h
          cases h
      | cut =>
          rw [hh] at h
          cases h

/-- So many bytes as a text. -/
def readCounted (n : Nat) (bytes : Bytes) : Result String :=
  if bytes.length < n then .error .shortText
  else
    match Text.Utf8.decode (bytes.take n) with
    | .error e => .error (.badText e)
    | .ok s => .ok (s, bytes.drop n)

theorem readText_eq : readText = andThen (readLittleEndian 8) readCounted := by
  funext bytes
  unfold readText andThen
  cases readLittleEndian 8 bytes <;> rfl

theorem Local.readCounted (n : Nat) : Local (readCounted n) := by
  intro bytes t rest more h
  unfold Codec.readCounted at h ⊢
  by_cases hlen : bytes.length < n
  · rw [if_pos hlen] at h
    cases h
  · have hn : n ≤ bytes.length := Nat.le_of_not_lt hlen
    have hmore : ¬(bytes ++ more).length < n := by
      rw [List.length_append]
      omega
    rw [if_neg hlen] at h
    rw [if_neg hmore, List.take_append_of_le_length hn, List.drop_append_of_le_length hn]
    cases hd : Text.Utf8.decode (bytes.take n) with
    | error e =>
        rw [hd] at h
        cases h
    | ok u =>
        rw [hd] at h
        cases h
        rfl

theorem Local.readText : Local readText := by
  rw [readText_eq]
  exact (Local.readLittleEndian 8).andThen Local.readCounted

/-- The bytes of the text can be counted in eight bytes. -/
def FitsText (t : String) : Prop := (Text.Utf8.encode t).length < 2 ^ 64

theorem Reads.counted (t : String) :
    Reads (readCounted (Text.Utf8.encode t).length) (Text.Utf8.encode t) t := by
  intro rest
  have hlen : ¬(Text.Utf8.encode t ++ rest).length < (Text.Utf8.encode t).length := by
    rw [List.length_append]
    omega
  rw [Codec.readCounted, if_neg hlen, List.take_left, List.drop_left, Text.Utf8.decode_encode]

theorem Reads.text {t : String} (h : FitsText t) : Reads readText (writeText t) t := by
  rw [readText_eq]
  exact (Reads.length h).andThen (Reads.counted t)

/-! ## Many values -/

theorem readMany_succ (f : Bytes → Result α) (n : Nat) :
    readMany f (n + 1) = andThen f fun v => andThen (readMany f n) fun l =>
      give ⟨v :: l.1, congrArg (· + 1) l.2⟩ := by
  funext bytes
  unfold andThen
  rw [readMany]
  cases f bytes with
  | error e => rfl
  | ok p =>
      simp only
      cases readMany f n p.2 <;> rfl

theorem readList_eq (f : Bytes → Result α) :
    readList f = andThen (readLittleEndian 8) fun n => andThen (readMany f n) fun l =>
      give l.1 := by
  funext bytes
  unfold readList andThen
  cases readLittleEndian 8 bytes with
  | error e => rfl
  | ok p =>
      simp only
      cases readMany f p.1 p.2 <;> rfl

theorem Reads.cons {l : List α} (hv : Reads f a v) (hl : Reads (readMany f l.length) b ⟨l, rfl⟩) :
    Reads (readMany f (v :: l).length) (a ++ b) ⟨v :: l, rfl⟩ := by
  change Reads (readMany f (l.length + 1)) _ _
  rw [readMany_succ]
  exact hv.andThen hl.andGive

theorem Reads.many {write : α → Bytes} {l : List α} (h : ∀ v ∈ l, Reads f (write v) v) :
    Reads (readMany f l.length) (l.flatMap write) ⟨l, rfl⟩ := by
  induction l with
  | nil => exact Reads.give _
  | cons v l ih =>
      have hl := ih fun u hu => h u (List.mem_cons_of_mem v hu)
      exact (h v List.mem_cons_self).cons hl

theorem Reads.list {bytes : Bytes} {l : List α} (hlen : l.length < 2 ^ 64)
    (h : Reads (readMany f l.length) bytes ⟨l, rfl⟩) :
    Reads (readList f) (writeLength l.length ++ bytes) l := by
  rw [readList_eq]
  exact (Reads.length hlen).andThen h.andGive

theorem Prolongs.readMany (h : Prolongs f f') (n : Nat) :
    Prolongs (readMany f n) (readMany f' n) := by
  induction n with
  | zero => exact Local.give _
  | succ n ih =>
      rw [readMany_succ, readMany_succ]
      exact h.andThen fun v => ih.andGive

theorem Prolongs.readList (h : Prolongs f f') : Prolongs (readList f) (readList f') := by
  rw [readList_eq, readList_eq]
  exact (Local.readLittleEndian 8).andThen fun n => (h.readMany n).andGive

/-! ## Trees -/

theorem readRose_succ (f : Bytes → Result α) (depth : Nat) :
    readRose f (depth + 1) = andThen f fun label =>
      andThen (readList (readRose f depth)) fun kids => give (.node label kids) := by
  funext bytes
  unfold andThen
  rw [readRose]
  cases f bytes with
  | error e => rfl
  | ok p =>
      simp only
      cases readList (readRose f depth) p.2 <;> rfl

mutual

/-- The labels are fit to be written, and the trees under each node can be counted. -/
def Rose.Fits (P : α → Prop) : Rose α → Prop
  | .node label kids => P label ∧ kids.length < 2 ^ 64 ∧ rosesFit P kids

def rosesFit (P : α → Prop) : List (Rose α) → Prop
  | [] => True
  | t :: r => t.Fits P ∧ rosesFit P r

end

mutual

/-- The depth up to which a tree is read is enough if it is not less than the bytes of the tree. -/
theorem Reads.rose {write : α → Bytes} {P : α → Prop} (hw : ∀ v, P v → Reads f (write v) v) :
    (t : Rose α) → t.Fits P → ∀ depth, (writeRose write t).length ≤ depth →
      Reads (readRose f depth) (writeRose write t) t
  | .node label kids, ⟨hlabel, hlen, hkids⟩, depth, hd => by
      simp only [writeRose, List.length_append] at hd ⊢
      have h8 : (writeLength kids.length).length = 8 := rfl
      cases depth with
      | zero => omega
      | succ depth =>
          have hk := Reads.roses hw kids hkids depth (by omega)
          rw [readRose_succ]
          exact (hw label hlabel).andThen (Reads.list hlen hk).andGive

theorem Reads.roses {write : α → Bytes} {P : α → Prop} (hw : ∀ v, P v → Reads f (write v) v) :
    (l : List (Rose α)) → rosesFit P l → ∀ depth, (writeRoses write l).length ≤ depth →
      Reads (readMany (readRose f depth) l.length) (writeRoses write l) ⟨l, rfl⟩
  | [], _, _, _ => Reads.give _
  | t :: r, ⟨ht, hr⟩, depth, hd => by
      simp only [writeRoses, List.length_append] at hd ⊢
      have hl := Reads.roses hw r hr depth (by omega)
      exact (Reads.rose hw t ht depth (by omega)).cons hl

end

theorem Local.readRose (h : Local f) {depth depth' : Nat} (hd : depth ≤ depth') :
    Prolongs (readRose f depth) (readRose f depth') := by
  induction depth generalizing depth' with
  | zero => exact fun _ _ _ _ h => by cases h
  | succ depth ih =>
      cases depth' with
      | zero => omega
      | succ depth' =>
          have hk := ih (Nat.le_of_succ_le_succ hd)
          rw [readRose_succ, readRose_succ]
          exact h.andThen fun label => hk.readList.andGive

/-! ## Named values -/

theorem insertNamed_last {k : String} {v : α} {l : List (String × α)} (h : ∀ e ∈ l, e.1 < k) :
    insertNamed k v l = l ++ [(k, v)] := by
  induction l with
  | nil => rfl
  | cons e l ih =>
      have he : e.1 < k := h e List.mem_cons_self
      have hne : k ≠ e.1 := fun heq => String.lt_irrefl k (heq ▸ he)
      rw [insertNamed, if_neg (String.lt_asymm he), if_neg hne,
        ih fun x hx => h x (List.mem_cons_of_mem e hx)]
      rfl

/-- Values that stand in the order of their names already stay as they are. -/
theorem collectNamed_eq {l : List (String × α)} (h : l.Pairwise fun e e' => e.1 < e'.1) :
    collectNamed l = l := by
  have hgo : ∀ l₁ l₂ : List (String × α), (l₁ ++ l₂).Pairwise (fun e e' => e.1 < e'.1) →
      l₂.foldl (fun m (k, v) => insertNamed k v m) l₁ = l₁ ++ l₂ := by
    intro l₁ l₂ h
    induction l₂ generalizing l₁ with
    | nil => exact (List.append_nil l₁).symm
    | cons e l₂ ih =>
        have hlast : ∀ x ∈ l₁, x.1 < e.1 := fun x hx =>
          (List.pairwise_append.mp h).2.2 x hx e List.mem_cons_self
        rw [List.append_cons] at h
        have hput : insertNamed e.1 e.2 l₁ = l₁ ++ [e] := insertNamed_last hlast
        rw [List.foldl_cons]
        simp only [hput]
        rw [ih _ h, ← List.append_cons]
  exact hgo [] l h

end Shardway.Codec
