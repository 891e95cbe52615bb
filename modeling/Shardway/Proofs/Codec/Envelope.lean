import Shardway.Client.Command
import Shardway.Proofs.Codec.Readers

/-!
# Stored values

A value of any shape is read back from what is stored of it. Bytes that end too early, or that begin
with another version, are refused.
-/

namespace Shardway.Codec

variable {α : Type}

/-! ## What can be stored -/

/-- The list can be counted in eight bytes, and so can whatever is in it. -/
def listFits (P : α → Prop) (l : List α) : Prop := l.length < 2 ^ 64 ∧ ∀ v ∈ l, P v

/-- Named values stand in the order of their names. -/
def namedFit (P : α → Prop) (l : List (String × α)) : Prop :=
  listFits (fun e => FitsText e.1 ∧ P e.2) l ∧ l.Pairwise fun e e' => e.1 < e'.1

mutual

/-- All lengths in the value can be given in eight bytes, named values stand in the order of their
names, and the case is one of those that four bytes can tell apart. -/
def Fits : (s : Shape) → s.Carrier → Prop
  | .unit, _ => True
  | .int _ _, _ => True
  | .float, _ => True
  | .bool, _ => True
  | .char, _ => True
  | .text, t => FitsText t
  | .option _, none => True
  | .option s, some v => Fits s v
  | .list s, l => listFits (Fits s) l
  | .array _ s, l => ∀ v ∈ l.1, Fits s v
  | .pair s t, (v, w) => Fits s v ∧ Fits t w
  | .map s, l => namedFit (Fits s) l
  | .rose s, t => t.Fits (Fits s)
  | .choice cs, v => FitsCase 0 cs v

/-- The same of a case, the cases being numbered from `i` on. -/
def FitsCase (i : Nat) : (cs : Cases) → cs.Carrier → Prop
  | .more s _, .inl v => i < 2 ^ 32 ∧ Fits s v
  | .more _ r, .inr v => FitsCase (i + 1) r v

end

/-! ## Each shape by its readers -/

theorem read_int (signed : Bool) (n : Nat) : read (.int signed n) =
    andThen (readLittleEndian n) fun v => give (BitVec.ofNat (8 * n) v) := by
  funext bytes
  rw [read]
  unfold andThen
  cases readLittleEndian n bytes <;> rfl

theorem read_float : read .float =
    andThen (readLittleEndian 8) fun v => give (BitVec.ofNat 64 v) := by
  funext bytes
  rw [read]
  unfold andThen
  cases readLittleEndian 8 bytes <;> rfl

theorem read_bool : read .bool = andThen readByte fun b =>
    if b = 0 then give false else if b = 1 then give true else refuse (.badBool b) := by
  funext bytes
  cases bytes with
  | nil => rfl
  | cons b r =>
      rw [read]
      simp only [andThen, readByte]
      split
      · rfl
      split <;> rfl

theorem read_option (s : Shape) : read (.option s) = andThen readByte fun b =>
    if b = 0 then give none
    else if b = 1 then andThen (read s) fun v => give (some v)
    else refuse (.badOption b) := by
  funext bytes
  cases bytes with
  | nil => rfl
  | cons b r =>
      rw [read]
      simp only [andThen, readByte]
      split
      · rfl
      split
      · unfold andThen
        cases read s r <;> rfl
      · rfl

theorem read_pair (s t : Shape) : read (.pair s t) =
    andThen (read s) fun v => andThen (read t) fun w => give (v, w) := by
  funext bytes
  rw [read]
  unfold andThen
  cases read s bytes with
  | error e => rfl
  | ok p =>
      simp only
      cases read t p.2 <;> rfl

/-- A name and the value under it. -/
def readNamed (f : Bytes → Result α) : Bytes → Result (String × α) :=
  andThen readText fun k => andThen f fun v => give (k, v)

theorem read_map (s : Shape) : read (.map s) =
    andThen (readList (readNamed (read s))) fun l => give (collectNamed l) := by
  funext bytes
  have hlist (f : Bytes → Result (String × s.Carrier))
      (hf : ∀ bytes, f bytes = readNamed (read s) bytes) :
      readList f bytes = readList (readNamed (read s)) bytes := by
    rw [funext hf]
  rw [read, hlist]
  · unfold andThen
    cases readList (readNamed (read s)) bytes <;> rfl
  · intro bytes
    unfold readNamed andThen
    cases readText bytes with
    | error e => rfl
    | ok p =>
        simp only
        cases read s p.2 <;> rfl

theorem read_choice (cs : Cases) : read (.choice cs) =
    andThen (readLittleEndian 4) fun i => readCase cs i (.badCase i cs.size) := by
  funext bytes
  rw [read]
  unfold andThen
  cases readLittleEndian 4 bytes <;> rfl

theorem readCase_zero (s : Shape) (r : Cases) (missing : Flaw) :
    readCase (.more s r) 0 missing = andThen (read s) fun v => give (.inl v) := by
  funext bytes
  rw [readCase]
  unfold andThen
  cases read s bytes <;> rfl

theorem readCase_succ (s : Shape) (r : Cases) (i : Nat) (missing : Flaw) :
    readCase (.more s r) (i + 1) missing =
      andThen (readCase r i missing) fun v => give (.inr v) := by
  funext bytes
  rw [readCase]
  unfold andThen
  cases readCase r i missing bytes <;> rfl

/-! ## What follows does not matter -/

mutual

theorem local_read : (s : Shape) → Local (read s)
  | .unit => Local.give ()
  | .int signed n => by
      rw [read_int]
      exact (Local.readLittleEndian n).andGive
  | .float => by
      rw [read_float]
      exact (Local.readLittleEndian 8).andGive
  | .bool => by
      rw [read_bool]
      refine Local.readByte.andThen fun b => ?_
      split
      · exact Local.give false
      split
      · exact Local.give true
      · exact Local.refuse _
  | .char => Local.readChar
  | .text => Local.readText
  | .option s => by
      rw [read_option]
      refine Local.readByte.andThen fun b => ?_
      split
      · exact Local.give none
      split
      · exact (local_read s).andGive
      · exact Local.refuse _
  | .list s => (local_read s).readList
  | .array n s => (local_read s).readMany n
  | .pair s t => by
      rw [read_pair]
      exact (local_read s).andThen fun v => (local_read t).andGive
  | .map s => by
      rw [read_map]
      have hnamed : Local (readNamed (read s)) :=
        Local.readText.andThen fun k => (local_read s).andGive
      exact hnamed.readList.andGive
  | .rose s => by
      intro bytes t rest more h
      refine Local.readRose (local_read s) ?_ bytes t rest more h
      rw [List.length_append]
      omega
  | .choice cs => by
      rw [read_choice]
      exact (Local.readLittleEndian 4).andThen fun i => local_readCase cs i _

theorem local_readCase : (cs : Cases) → (i : Nat) → (missing : Flaw) →
    Local (readCase cs i missing)
  | .none, _, missing => Local.refuse missing
  | .more s r, 0, missing => by
      rw [readCase_zero]
      exact (local_read s).andGive
  | .more s r, i + 1, missing => by
      rw [readCase_succ]
      exact (local_readCase r i missing).andGive

end

/-! ## What is written is read back -/

mutual

theorem reads_write : (s : Shape) → (v : s.Carrier) → Fits s v → Reads (read s) (write s v) v
  | .unit, (), _ => Reads.give ()
  | .int signed n, v, _ => by
      rw [read_int]
      exact Reads.bits n v
  | .float, v, _ => by
      rw [read_float]
      exact Reads.bits 8 v
  | .bool, true, _ => by
      rw [read_bool]
      exact (Reads.readByte 1).andThen (Reads.give true)
  | .bool, false, _ => by
      rw [read_bool]
      exact (Reads.readByte 0).andThen (Reads.give false)
  | .char, c, _ => Reads.char c
  | .text, t, h => Reads.text h
  | .option s, none, _ => by
      rw [read_option]
      exact (Reads.readByte 0).andThen (Reads.give none)
  | .option s, some v, h => by
      rw [read_option]
      exact (Reads.readByte 1).andThen (reads_write s v h).andGive
  | .list s, l, ⟨hlen, h⟩ => Reads.list hlen (Reads.many fun v hv => reads_write s v (h v hv))
  | .array _ s, ⟨l, hl⟩, h => by
      subst hl
      exact Reads.many fun v hv => reads_write s v (h v hv)
  | .pair s t, (v, w), ⟨hv, hw⟩ => by
      rw [read_pair]
      exact (reads_write s v hv).andThen (reads_write t w hw).andGive
  | .map s, l, ⟨⟨hlen, h⟩, hord⟩ => by
      have hl := Reads.list hlen (Reads.many (f := readNamed (read s)) fun e he =>
        (Reads.text (h e he).1).andThen (reads_write s e.2 (h e he).2).andGive)
      rw [read_map]
      have hmap := hl.andGive (h := collectNamed)
      rwa [collectNamed_eq hord] at hmap
  | .rose s, t, h => by
      intro rest
      have hd : (writeRose (write s) t).length ≤ (writeRose (write s) t ++ rest).length + 1 := by
        rw [List.length_append]
        omega
      exact Reads.rose (reads_write s) t h _ hd rest
  | .choice cs, v, h => by
      obtain ⟨j, bytes, hj, hw, hr⟩ := readsCase_write cs v 0 h
      rw [Nat.zero_add] at hj hw
      rw [read_choice, write, hw]
      exact (Reads.littleEndian 4 j hj).andThen (hr _)

theorem readsCase_write : (cs : Cases) → (v : cs.Carrier) → (i : Nat) → FitsCase i cs v →
    ∃ j bytes, i + j < 2 ^ 32 ∧ writeCase i cs v = littleEndian 4 (i + j) ++ bytes ∧
      ∀ missing, Reads (readCase cs j missing) bytes v
  | .more s r, .inl v, i, ⟨hi, hv⟩ => by
      refine ⟨0, write s v, hi, rfl, fun missing => ?_⟩
      rw [readCase_zero]
      exact (reads_write s v hv).andGive
  | .more s r, .inr v, i, h => by
      obtain ⟨j, bytes, hj, hw, hr⟩ := readsCase_write r v (i + 1) h
      have hnum : i + 1 + j = i + (j + 1) := by omega
      refine ⟨j + 1, bytes, by omega, hnum ▸ hw, fun missing => ?_⟩
      rw [readCase_succ]
      exact (hr missing).andGive

end

/-! ## The envelope -/

/-- No value comes of it, but a fault of the stored bytes. -/
def Refused (r : Except Flaw α) : Prop := ∃ text, r.mapError Flaw.fault = .error (.codec text)

theorem Refused.error (e : Flaw) : Refused (.error e : Except Flaw α) := ⟨e.message, rfl⟩

theorem decode_encode (s : Shape) (v : s.Carrier) (h : Fits s v) :
    decode s (encode s v) = .ok v := by
  have hv := reads_write s v h []
  rw [List.append_nil] at hv
  rw [encode, decode, if_pos rfl, hv]

theorem refused_of_isPrefix {s : Shape} {v : s.Carrier} (h : Fits s v) {bytes : Bytes}
    (hpre : bytes <+: encode s v) (hne : bytes ≠ encode s v) : Refused (decode s bytes) := by
  cases bytes with
  | nil => exact Refused.error .noBytes
  | cons b payload =>
      obtain ⟨rfl, hpayload⟩ := List.cons_prefix_cons.mp hpre
      rw [decode, if_pos rfl]
      cases hp : read s payload with
      | error e => exact Refused.error e
      | ok p =>
          have heq := (reads_write s v h).eq_of_isPrefix (local_read s) hpayload hp
          exact absurd (congrArg (version :: ·) heq) hne

theorem refused_of_version (s : Shape) {b : UInt8} (hb : b ≠ version) (payload : Bytes) :
    Refused (decode s (b :: payload)) := by
  rw [decode, if_neg hb]
  exact Refused.error (.badVersion b)

theorem getStored_encode (s : Shape) (key : Bytes) (v : s.Carrier) (h : Fits s v) :
    (Command.getStored s key).read (.bulk (encode s v)) = .ok (some v) := by
  have hread : (Command.getStored s key).read (.bulk (encode s v)) =
      some <$> (decode s (encode s v)).mapError Flaw.fault := rfl
  rw [hread, decode_encode s v h]
  rfl

/-- A value that fits in its layout is read back from what is stored of it. Nothing is read from
bytes that end before, or from none, or from any that begin with another version. So what a client
sets it gets back, from a node that answers with the bytes it was sent. -/
theorem whole_or_refused (s : Shape) (v : s.Carrier) (h : Fits s v) :
    decode s (encode s v) = .ok v ∧
      (∀ bytes, bytes <+: encode s v → bytes ≠ encode s v → Refused (decode s bytes)) ∧
      (∀ b payload, b ≠ version → Refused (decode s (b :: payload))) ∧
      ∀ key, ∃ bytes, (Command.setStored s key v).request = [Command.word "SET", key, bytes] ∧
        (Command.getStored s key).read (.bulk bytes) = .ok (some v) :=
  ⟨decode_encode s v h, fun _ => refused_of_isPrefix h,
    fun _ payload hb => refused_of_version s hb payload,
    fun key => ⟨encode s v, rfl, getStored_encode s key v h⟩⟩

/-- A number and some texts. -/
def session : Shape := .pair (.int false 8) (.list .text)

theorem whole_or_refused_session :
    ∃ v : session.Carrier, v = ((7 : BitVec 64), ["admin", "é"]) ∧ Fits session v ∧
      decode session (encode session v) = .ok v ∧ (encode session v).length = 40 ∧
      Refused (decode session ((encode session v).take 39)) ∧ Refused (decode session []) ∧
      Refused (decode session [2]) := by
  have hfits : Fits session ((7 : BitVec 64), ["admin", "é"]) := by
    refine ⟨trivial, by decide, fun t ht => ?_⟩
    have ht : t = "admin" ∨ t = "é" := by
      rcases List.mem_cons.mp ht with rfl | ht
      · exact .inl rfl
      · exact .inr (List.mem_singleton.mp ht)
    change (Text.Utf8.encode t).length < 2 ^ 64
    rcases ht with rfl | rfl <;> decide
  obtain ⟨hback, hcut, hversion, -⟩ := whole_or_refused session _ hfits
  exact ⟨_, rfl, hfits, hback, rfl, hcut _ (List.take_prefix _ _) (by decide),
    hcut _ List.nil_prefix (by decide), hversion 2 [] (by decide)⟩

end Shardway.Codec
