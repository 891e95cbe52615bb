import Shardway.Role
import Shardway.Proofs.Text.Blanks
import Shardway.Proofs.Topology.Addresses

/-!
# Reports

A report tells a role by what stands on the last line of each of three fields. What else is in it
does not matter, nor do the ends of its lines or the order of the fields.
-/

namespace Shardway.Report

open Text

/-- The text consists of the lines. Each ends with a line feed, and perhaps a carriage return before
it, but the last one may lack its end. -/
inductive Written : List (List Char) → List Char → Prop
  | nil : Written [] []
  | rest {l : List Char} : l ≠ [] → '\n' ∉ l → Written [l] l
  | lf {l : List Char} {ls : List (List Char)} {text : List Char} :
      '\n' ∉ l → l.getLast? ≠ some '\r' → Written ls text → Written (l :: ls) (l ++ '\n' :: text)
  | crlf {l : List Char} {ls : List (List Char)} {text : List Char} :
      '\n' ∉ l → Written ls text → Written (l :: ls) (l ++ '\r' :: '\n' :: text)

/-- The last line of the field gives it this value. -/
inductive Says (ls : List (List Char)) (key value : List Char) : Prop
  | intro {before after : List (List Char)} : ls = before ++ (key ++ ':' :: value) :: after →
      (∀ v, key ++ ':' :: v ∉ after) → Says ls key value

/-- The lines name the node that a replica follows: there is more to its host than blanks, and its
port is a numeral. -/
inductive Names (ls : List (List Char)) (a : Address) : Prop
  | intro {host port : List Char} : Says ls "master_host".toList host →
      TrimsTo host a.host.toList → a.host ≠ "" → Says ls "master_port".toList port →
      Numeral port a.port.toNat → Names ls a

/-- A word for a replica. -/
def IsReplica (word : List Char) : Prop := word = "slave".toList ∨ word = "replica".toList

instance (word : List Char) : Decidable (IsReplica word) := inferInstanceAs (Decidable (_ ∨ _))

/-- What the lines tell of the role. -/
inductive Tells (ls : List (List Char)) : Except Fault Role → Prop
  | master {role : List Char} :
      Says ls "role".toList role → TrimsTo role "master".toList → Tells ls (.ok .master)
  | following {role word : List Char} {a : Address} : Says ls "role".toList role →
      TrimsTo role word → IsReplica word → Names ls a → Tells ls (.ok (.replica (some a)))
  | alone {role word : List Char} : Says ls "role".toList role →
      TrimsTo role word → IsReplica word → (∀ a, ¬ Names ls a) → Tells ls (.ok (.replica none))
  | unknown {role word : List Char} : Says ls "role".toList role →
      TrimsTo role word → word ≠ "master".toList → ¬ IsReplica word →
      Tells ls (.error (.protocol s!"unknown role {quoted (String.ofList word)}"))
  | silent : (∀ v, ¬ Says ls "role".toList v) →
      Tells ls (.error (.protocol "no role field in INFO reply"))

/-- The fields that tell the role. -/
def fields : List (List Char) := ["role", "master_host", "master_port"].map String.toList

/-- A line that is no part of what tells the role. -/
inductive Idle : List Char → Prop
  | empty : Idle []
  | comment {l : List Char} : Idle ('#' :: l)
  | colonless {l : List Char} : ':' ∉ l → Idle l
  | other {key v : List Char} : ':' ∉ key → key ∉ fields → Idle (key ++ ':' :: v)

/-- A carriage return before each line feed. -/
def withReturns (text : List Char) : List Char :=
  text.flatMap fun c => if c = '\n' then ['\r', '\n'] else [c]

/-- A line can give the field. -/
structure IsKey (key : List Char) : Prop where
  colon : ':' ∉ key
  comment : key.head? ≠ some '#'

/-- The report on some lines. -/
def ofLines (ls : List (List Char)) : Report :=
  (ls.filterMap field?).foldl (fun r (k, v) => r.set k v) []

variable {ls ls' : List (List Char)} {l key v k text : List Char} {c : Char} {r : Report}

/-! ## Lines -/

theorem notMem_cons (h : '\n' ∉ c :: l) : c ≠ '\n' ∧ '\n' ∉ l := by
  simpa [eq_comm] using h

theorem lines_cons (hc : c ≠ '\n') (hn : c = '\r' → text.head? ≠ some '\n')
    (h : lines text = l :: ls) : lines (c :: text) = (c :: l) :: ls := by
  unfold lines
  split
  · rename_i heq
    cases heq
  · rename_i heq
    cases heq
    exact absurd rfl (hn rfl)
  · rename_i heq
    cases heq
    rw [if_neg hc, h]

theorem lines_rest (hl : l ≠ []) (h : '\n' ∉ l) : lines l = [l] := by
  induction l with
  | nil => exact absurd rfl hl
  | cons c l ih =>
      obtain ⟨hc, h⟩ := notMem_cons h
      cases l with
      | nil => simp [lines, hc]
      | cons d l =>
          obtain ⟨hd, -⟩ := notMem_cons h
          exact lines_cons hc (fun _ he => hd (Option.some.inj he)) (ih (by simp) h)

theorem lines_lf (h : '\n' ∉ l) (hl : l.getLast? ≠ some '\r') :
    lines (l ++ '\n' :: text) = l :: lines text := by
  induction l with
  | nil => simp [lines]
  | cons c l ih =>
      obtain ⟨hc, h⟩ := notMem_cons h
      cases l with
      | nil => exact lines_cons hc (fun he => absurd (by rw [he]; rfl) hl) (ih h (by simp))
      | cons d l =>
          obtain ⟨hd, -⟩ := notMem_cons h
          refine lines_cons hc (fun _ he => hd (Option.some.inj he)) (ih h ?_)
          rwa [List.getLast?_cons_cons] at hl

theorem lines_crlf (h : '\n' ∉ l) : lines (l ++ '\r' :: '\n' :: text) = l :: lines text := by
  induction l with
  | nil => simp [lines]
  | cons c l ih =>
      obtain ⟨hc, h⟩ := notMem_cons h
      refine lines_cons hc (fun _ he => ?_) (ih h)
      cases l with
      | nil => exact absurd (Option.some.inj he) (by decide)
      | cons d l => exact h (Option.some.inj he ▸ List.mem_cons_self)

theorem Written.lines_eq (h : Written ls text) : lines text = ls := by
  induction h with
  | nil => simp [lines]
  | rest hl h => exact lines_rest hl h
  | lf h hl _ ih => rw [lines_lf h hl, ih]
  | crlf h _ ih => rw [lines_crlf h, ih]

theorem Written.cons (hc : c ≠ '\n') (hn : c = '\r' → text.head? ≠ some '\n')
    (h : Written (l :: ls) text) : Written ((c :: l) :: ls) (c :: text) := by
  have hm (l : List Char) (hl : '\n' ∉ l) : '\n' ∉ c :: l := by
    simpa [hc.symm] using hl
  cases h with
  | rest hl h => exact .rest (by simp) (hm _ h)
  | lf h hl ht =>
      refine .lf (hm _ h) ?_ ht
      cases l with
      | nil => exact fun he => hn (Option.some.inj he) rfl
      | cons d l => rwa [List.getLast?_cons_cons]
  | crlf h ht => exact .crlf (hm _ h) ht

theorem written_lines (text : List Char) : Written (lines text) text := by
  fun_induction lines text with
  | case1 => exact .nil
  | case2 text ih => exact .crlf (l := []) (by simp) ih
  | case3 text _ ih => exact .lf (l := []) (by simp) (by simp) ih
  | case4 c text _ hc hl ih =>
      rw [hl] at ih
      cases ih
      exact .rest (by simp) (by simpa using Ne.symm hc)
  | case5 c text hn hc l ls hl ih =>
      rw [hl] at ih
      refine ih.cons hc fun he ht => ?_
      obtain ⟨text, rfl⟩ := List.head?_eq_some_iff.mp ht
      exact hn text he rfl

theorem written_iff : Written ls text ↔ lines text = ls := by
  refine ⟨Written.lines_eq, ?_⟩
  rintro rfl
  exact written_lines text

theorem withReturns_of_notMem (h : '\n' ∉ l) : withReturns l = l := by
  induction l with
  | nil => rfl
  | cons c l ih =>
      obtain ⟨hc, h⟩ := notMem_cons h
      rw [withReturns, List.flatMap_cons, if_neg hc]
      exact congrArg (c :: ·) (ih h)

theorem Written.withReturns (h : Written ls text) (hr : '\r' ∉ text) :
    Written ls (withReturns text) := by
  induction h with
  | nil => exact .nil
  | rest hl h =>
      rw [withReturns_of_notMem h]
      exact .rest hl h
  | @lf l ls text h _ _ ih =>
      have he : Report.withReturns (l ++ '\n' :: text) =
          l ++ '\r' :: '\n' :: Report.withReturns text := by
        rw [Report.withReturns, List.flatMap_append, ← Report.withReturns, withReturns_of_notMem h]
        rfl
      rw [he]
      exact .crlf h (ih fun hm => hr (by simp [hm]))
  | crlf => simp at hr

/-! ## Fields -/

theorem field?_gives (hk : IsKey key) : field? (key ++ ':' :: v) = some (key, v) := by
  have hp : ∀ c ∈ key, decide (c ≠ ':') = true := fun c hm => by
    simpa using fun he : c = ':' => hk.colon (he ▸ hm)
  have hh : (key ++ ':' :: v).head? ≠ some '#' := by
    cases key with
    | nil => simp
    | cons c key => exact hk.comment
  unfold field?
  rw [if_neg hh, List.dropWhile_append_of_pos hp, List.takeWhile_append_of_pos hp]
  simp

theorem field?_eq_some (h : field? l = some (key, v)) : l = key ++ ':' :: v := by
  unfold field? at h
  split at h
  · cases h
  split at h
  · cases h
  · rename_i c value hd
    have hs := List.takeWhile_append_dropWhile (p := (· ≠ ':')) (l := l)
    have hc : c = ':' := by
      have hn := List.head?_dropWhile_not (· ≠ ':') l
      rw [hd] at hn
      simpa using hn
    subst hc
    cases h
    rw [← hd, hs]

theorem get?_set : (r.set k v).get? key = if k = key then some v else r.get? key := by
  unfold get? set
  split
  · rename_i h
    simp [h]
  · rename_i h
    rw [List.find?_cons_of_neg (by simpa using h), List.find?_filter]
    congr 2
    funext a
    by_cases ha : a.1 = key
    · simp [ha, Ne.symm h]
    · simp [ha]

theorem get?_foldl (fs : Report) :
    (fs.foldl (fun (r : Report) (k, v) => r.set k v) r).get? key =
      ((fs.foldl (fun (r : Report) (k, v) => r.set k v) []).get? key).or (r.get? key) := by
  induction fs using List.reverseRecOn with
  | nil => simp [get?]
  | append_singleton fs f ih =>
      simp only [List.foldl_append, List.foldl_cons, List.foldl_nil, get?_set]
      split
      · rfl
      · exact ih

theorem get?_append :
    (ofLines (ls ++ ls')).get? key = ((ofLines ls').get? key).or ((ofLines ls).get? key) := by
  rw [ofLines, List.filterMap_append, List.foldl_append, get?_foldl]
  rfl

theorem get?_cons :
    (ofLines (l :: ls)).get? key = ((ofLines ls).get? key).or ((ofLines [l]).get? key) :=
  @get?_append [l] ls key

theorem get?_gives (hk : IsKey key) : (ofLines [key ++ ':' :: v]).get? key = some v := by
  simp [ofLines, field?_gives hk, get?_set]

theorem get?_idle (h : ∀ v, l ≠ key ++ ':' :: v) : (ofLines [l]).get? key = none := by
  cases hf : field? l with
  | none => simp [ofLines, hf, get?]
  | some f =>
      obtain ⟨k, v⟩ := f
      have hk : k ≠ key := by
        rintro rfl
        exact h v (field?_eq_some hf)
      have hs : ofLines [l] = set [] k v := by simp [ofLines, hf]
      rw [hs, get?_set, if_neg hk]
      rfl

theorem get?_eq_none (h : ∀ v, key ++ ':' :: v ∉ ls) : (ofLines ls).get? key = none := by
  induction ls with
  | nil => rfl
  | cons l ls ih =>
      rw [get?_cons, ih fun v hm => h v (List.mem_cons_of_mem l hm), Option.none_or]
      exact get?_idle fun v he => h v (he ▸ List.mem_cons_self)

theorem says_of_get? (hk : IsKey key) (h : (ofLines ls).get? key = some v) : Says ls key v := by
  induction ls using List.reverseRecOn with
  | nil => cases h
  | append_singleton ls l ih =>
      rw [get?_append] at h
      by_cases hl : ∃ w, l = key ++ ':' :: w
      · obtain ⟨w, rfl⟩ := hl
        rw [get?_gives hk] at h
        cases h
        exact .intro rfl (by simp)
      · have hi : ∀ w, l ≠ key ++ ':' :: w := fun w he => hl ⟨w, he⟩
        rw [get?_idle hi, Option.none_or] at h
        obtain ⟨rfl, ha⟩ := ih h
        refine .intro (List.append_assoc ..) fun w hm => ?_
        rcases List.mem_append.mp hm with hm | hm
        · exact ha w hm
        · exact hi w (List.mem_singleton.mp hm).symm

theorem get?_eq_some (hk : IsKey key) : (ofLines ls).get? key = some v ↔ Says ls key v := by
  refine ⟨says_of_get? hk, ?_⟩
  rintro ⟨rfl, ha⟩
  rw [get?_append, get?_cons, get?_eq_none ha, Option.none_or, get?_gives hk, Option.some_or]

theorem isKey_of_mem (h : key ∈ fields) : IsKey key := by
  have hf : ∀ key ∈ fields, ':' ∉ key ∧ key.head? ≠ some '#' := by decide
  exact ⟨(hf key h).1, (hf key h).2⟩

/-! ## Roles -/

/-- The three fields are all that the role depends on. -/
theorem role_congr {r r' : Report} (h : ∀ key ∈ fields, r.get? key = r'.get? key) :
    r.role = r'.role := by
  have hr := h "role".toList (by decide)
  have hh := h "master_host".toList (by decide)
  have hp := h "master_port".toList (by decide)
  simp only [role, source?, hr, hh, hp]

theorem source?_eq_some {a : Address} : (ofLines ls).source? = some a ↔ Names ls a := by
  have hh : IsKey "master_host".toList := isKey_of_mem (by decide)
  have hp : IsKey "master_port".toList := isKey_of_mem (by decide)
  constructor
  · intro h
    unfold source? at h
    split at h
    · rename_i host n hhost hn
      obtain ⟨port, hport, hn⟩ := Option.bind_eq_some_iff.mp hn
      obtain ⟨hn, hlt⟩ := readNat?_eq_some.mp hn
      dsimp only at h
      split at h
      · cases h
      · rename_i hne
        cases h
        refine .intro ((get?_eq_some hh).mp hhost) ?_ ?_ ((get?_eq_some hp).mp hport) ?_
        · simpa using trimsTo_trimChars host
        · simpa using hne
        · rwa [UInt16.toNat_ofNat_of_lt' hlt]
    · cases h
  · rintro ⟨hhost, ht, hne, hport, hn⟩
    have hr := readNat?_eq_some.mpr ⟨hn, a.port.toNat_lt⟩
    have he : (a.host.toList.isEmpty) = false := by simpa using hne
    unfold source?
    rw [(get?_eq_some hh).mpr hhost, (get?_eq_some hp).mpr hport, Option.bind_some, hr]
    simp [trimChars_eq.mpr ht, he]

theorem role_of_trimsTo {role word : List Char} (hr : Says ls "role".toList role)
    (ht : TrimsTo role word) :
    (ofLines ls).role =
      if word = "master".toList then .ok .master
      else if IsReplica word then .ok (.replica (ofLines ls).source?)
      else .error (.protocol s!"unknown role {quoted (String.ofList word)}") := by
  have hk : IsKey "role".toList := isKey_of_mem (by decide)
  rw [Report.role, (get?_eq_some hk).mpr hr, Option.map_some, trimChars_eq.mpr ht]
  rfl

theorem not_isReplica_master : ¬ IsReplica "master".toList := by decide

theorem IsReplica.ne_master {word : List Char} (h : IsReplica word) : word ≠ "master".toList := by
  rintro rfl
  exact not_isReplica_master h

theorem Tells.role_eq {r : Except Fault Role} (h : Tells ls r) : (ofLines ls).role = r := by
  cases h with
  | master hr ht => rw [role_of_trimsTo hr ht, if_pos rfl]
  | following hr ht hw hn =>
      rw [role_of_trimsTo hr ht, if_neg hw.ne_master, if_pos hw, source?_eq_some.mpr hn]
  | alone hr ht hw hn =>
      have hs : (ofLines ls).source? = none :=
        Option.eq_none_iff_forall_ne_some.mpr fun a ha => hn a (source?_eq_some.mp ha)
      rw [role_of_trimsTo hr ht, if_neg hw.ne_master, if_pos hw, hs]
  | unknown hr ht hm hw => rw [role_of_trimsTo hr ht, if_neg hm, if_neg hw]
  | silent h =>
      have hk : IsKey "role".toList := isKey_of_mem (by decide)
      have hn : (ofLines ls).get? "role".toList = none :=
        Option.eq_none_iff_forall_ne_some.mpr fun v hv => h v ((get?_eq_some hk).mp hv)
      rw [role, hn]
      rfl

theorem tells_role (ls : List (List Char)) : Tells ls (ofLines ls).role := by
  have hk : IsKey "role".toList := isKey_of_mem (by decide)
  cases hg : (ofLines ls).get? "role".toList with
  | none =>
      rw [role, hg]
      refine .silent fun v hv => ?_
      rw [(get?_eq_some hk).mpr hv] at hg
      cases hg
  | some role =>
      have hr := (get?_eq_some hk).mp hg
      have ht := trimsTo_trimChars role
      rw [role_of_trimsTo hr ht]
      split
      · rename_i hm
        exact .master hr (hm ▸ ht)
      split
      · rename_i hw
        cases hs : (ofLines ls).source? with
        | none =>
            refine .alone hr ht hw fun a ha => ?_
            rw [source?_eq_some.mpr ha] at hs
            cases hs
        | some a => exact .following hr ht hw (source?_eq_some.mp hs)
      · rename_i hm hw
        exact .unknown hr ht hm hw

theorem ofReport_eq {text : String} (h : Written ls text.toList) :
    Role.ofReport text = (ofLines ls).role := by
  rw [← h.lines_eq]
  rfl

/-! ## Lines that do not matter -/

theorem Idle.get? (h : Idle l) (hk : key ∈ fields) : (ofLines [l]).get? key = none := by
  refine get?_idle fun v he => ?_
  have hkey := isKey_of_mem hk
  cases h with
  | empty => simp at he
  | @comment l =>
      refine hkey.comment ?_
      cases key with
      | nil => exact absurd (List.cons.inj he).1 (by decide)
      | cons c key => exact congrArg some (List.cons.inj he).1.symm
  | colonless hl => exact hl (he ▸ by simp)
  | other hc hf =>
      rw [Address.eq_of_append_colon hc hkey.colon he] at hf
      exact hf hk

theorem role_insert (h : Idle l) :
    (ofLines (ls ++ l :: ls')).role = (ofLines (ls ++ ls')).role := by
  refine role_congr fun key hk => ?_
  rw [get?_append, get?_cons, h.get? hk, Option.or_none, ← get?_append]

theorem role_swap {k' v' : List Char} (hk : ':' ∉ k) (hk' : ':' ∉ k') (hne : k ≠ k') :
    (ofLines (ls ++ (k ++ ':' :: v) :: (k' ++ ':' :: v') :: ls')).role =
      (ofLines (ls ++ (k' ++ ':' :: v') :: (k ++ ':' :: v) :: ls')).role := by
  refine role_congr fun key hkey => ?_
  have hkey := isKey_of_mem hkey
  have hi {k v : List Char} (hk : ':' ∉ k) (h : key ≠ k) :
      (ofLines [k ++ ':' :: v]).get? key = none :=
    get?_idle fun w he => h (Address.eq_of_append_colon hk hkey.colon he).symm
  rw [get?_append, get?_append, @get?_cons (_ :: ls'), @get?_cons ls', @get?_cons (_ :: ls'),
    @get?_cons ls']
  by_cases he : key = k
  · subst he
    rw [hi hk' hne, Option.or_none, Option.or_none]
  · rw [hi hk he, Option.or_none, Option.or_none]

/-- A report tells of the role just what the last lines of three fields say of it: a master; a
replica, along with the node that it follows if the lines name one; and a fault if there is no line
for the role, or one of another kind. An idle line anywhere, two lines of different fields in the
other order, and line feeds that all get a carriage return leave what it tells as it was. -/
theorem ofReport_iff_tells :
    (∀ text : String, ∃! ls, Written ls text.toList) ∧
      (∀ (text : String) ls r, Written ls text.toList → (Role.ofReport text = r ↔ Tells ls r)) ∧
      (∀ (text text' : String) ls ls' l, Written (ls ++ ls') text.toList → Idle l →
        Written (ls ++ l :: ls') text'.toList → Role.ofReport text' = Role.ofReport text) ∧
      (∀ (text text' : String) ls ls' k v k' v', ':' ∉ k → ':' ∉ k' → k ≠ k' →
        Written (ls ++ (k ++ ':' :: v) :: (k' ++ ':' :: v') :: ls') text.toList →
        Written (ls ++ (k' ++ ':' :: v') :: (k ++ ':' :: v) :: ls') text'.toList →
        Role.ofReport text' = Role.ofReport text) ∧
      ∀ text : String, '\r' ∉ text.toList →
        Role.ofReport (String.ofList (withReturns text.toList)) = Role.ofReport text := by
  refine ⟨fun text => ⟨_, written_lines _, fun ls h => h.lines_eq.symm⟩, fun text ls r h => ?_,
    fun text text' ls ls' l h hl h' => ?_, fun text text' ls ls' k v k' v' hk hk' hne h h' => ?_,
    fun text h => ?_⟩
  · rw [ofReport_eq h]
    refine ⟨?_, Tells.role_eq⟩
    rintro rfl
    exact tells_role ls
  · rw [ofReport_eq h, ofReport_eq h', role_insert hl]
  · rw [ofReport_eq h, ofReport_eq h', role_swap hk hk' hne]
  · have hw := (written_lines text.toList).withReturns h
    rw [ofReport_eq (written_lines text.toList), ofReport_eq (by rwa [String.toList_ofList])]

/-- Two lines for the role, a colon in the host, blanks around values and a sign before the port. -/
theorem ofReport_iff_tells_replica :
    Role.ofReport "role:slave\nmaster_host: a:b \r\nrole: replica\nmaster_port:+6301" =
        .ok (.replica (some ⟨"a:b", 6301⟩)) ∧
      Role.ofReport
          "role:slave\nmaster_host: a:b \r\n# role:master\r\nrole: replica\nmaster_port:+6301" =
        Role.ofReport "role:slave\nmaster_host: a:b \r\nrole: replica\nmaster_port:+6301" ∧
      Role.ofReport "master_host: a:b \nrole:slave\nrole: replica\nmaster_port:+6301" =
        Role.ofReport "role:slave\nmaster_host: a:b \r\nrole: replica\nmaster_port:+6301" ∧
      Role.ofReport "role:master\r\n" = Role.ofReport "role:master\n" := by
  let ls :=
    ["role:slave", "master_host: a:b ", "role: replica", "master_port:+6301"].map String.toList
  have hw : Written ls
      "role:slave\nmaster_host: a:b \r\nrole: replica\nmaster_port:+6301".toList :=
    written_iff.mpr (by decide)
  have hf {key v : List Char} (hk : key ∈ fields) (h : (ofLines ls).get? key = some v) :
      Says ls key v := (get?_eq_some (isKey_of_mem hk)).mp h
  have hn : Names ls ⟨"a:b", 6301⟩ :=
    .intro (hf (by decide) rfl) (trimChars_eq.mp (by decide)) (by decide) (hf (by decide) rfl)
      (.plus (readDigits?_eq_some.mp rfl))
  have ht : Tells ls (.ok (.replica (some ⟨"a:b", 6301⟩))) :=
    .following (hf (by decide) rfl) (trimChars_eq.mp rfl) (.inr rfl) hn
  obtain ⟨-, hr, hi, hs, hc⟩ := ofReport_iff_tells
  refine ⟨(hr _ ls _ hw).mpr ht, hi _ _ (ls.take 2) (ls.drop 2) "# role:master".toList hw .comment
    (written_iff.mpr (by decide)), ?_, hc "role:master\n" (by decide)⟩
  exact hs _ _ [] (ls.drop 2) "role".toList "slave".toList "master_host".toList " a:b ".toList
    (by decide) (by decide) (by decide) hw (written_iff.mpr (by decide))

end Shardway.Report
