import Mathlib.Data.List.Basic
import Mathlib.Data.List.TakeWhile
import Mathlib.Data.String.Basic

/-!
Header maps of the `http` crate: names in lower case, a name's first value first,
values any bytes that are no control characters. `to_str` reads a value of visible
ASCII characters, spaces and tabs.
-/
namespace HttpHeaders

abbrev Bytes := List UInt8

def visible (b : UInt8) : Bool := b == 9 || (32 ≤ b && b < 127)

def visibleChar (c : Char) : Bool := c.toNat == 9 || (32 ≤ c.toNat && c.toNat < 127)

def tokenChar (c : Char) : Bool :=
  let n := c.toNat
  (48 ≤ n && n ≤ 57) || (65 ≤ n && n ≤ 90) || (97 ≤ n && n ≤ 122) ||
    "!#$%&'*+-.^_`|~".toList.contains c

def toStr (value : Bytes) : Option String :=
  if value.all visible then some (String.ofList (value.map fun b => Char.ofNat b.toNat)) else none

def utf8 (s : String) : Bytes := s.toList.flatMap String.utf8EncodeChar

abbrev HeaderMap := List (String × Bytes)

def get (hm : HeaderMap) (name : String) : Option Bytes :=
  (hm.find? fun h => h.1 = name).map Prod.snd

def extractHeader (hm : HeaderMap) (name : String) (or : String) : String :=
  match get hm name with
  | none => or
  | some v => (toStr v).getD or

theorem visible_char_of_byte {b : UInt8} (seen : visible b = true) :
    visibleChar (Char.ofNat b.toNat) = true ∧ (Char.ofNat b.toNat).toNat = b.toNat := by
  have small := b.toNat_lt
  have back : (Char.ofNat b.toNat).toNat = b.toNat := by
    have valid : b.toNat.isValidChar := Or.inl (by omega)
    unfold Char.ofNat
    rw [dif_pos valid]
    rfl
  refine ⟨?_, back⟩
  simp only [visible, Bool.or_eq_true, beq_iff_eq, Bool.and_eq_true, decide_eq_true_eq,
    UInt8.le_iff_toNat_le, UInt8.lt_iff_toNat_lt] at seen
  simp only [visibleChar, back, Bool.or_eq_true, beq_iff_eq, Bool.and_eq_true, decide_eq_true_eq]
  rcases seen with tab | ⟨low, high⟩
  · left
    rw [tab]
    rfl
  · exact Or.inr ⟨low, high⟩

theorem to_str_visible {value : Bytes} {s : String} (read : toStr value = some s) :
    ∀ c ∈ s.toList, visibleChar c = true := by
  unfold toStr at read
  split at read
  · rename_i all
    cases read
    intro c mem
    rw [String.toList_ofList, List.mem_map] at mem
    obtain ⟨b, inside, rfl⟩ := mem
    exact (visible_char_of_byte (List.all_eq_true.mp all b inside)).1
  · cases read

theorem to_lower_cases (c : Char) : c.toLower = c ∨
    (65 ≤ c.toNat ∧ c.toNat ≤ 90 ∧ c.toLower.toNat = c.toNat + 32) := by
  unfold Char.toLower
  split
  · rename_i upper
    refine Or.inr ⟨upper.1, upper.2, ?_⟩
    have low : 65 ≤ c.val.toNat := upper.1
    have high : c.val.toNat ≤ 90 := upper.2
    have sum : (c.val + ('a'.val - 'A'.val)).toNat = c.val.toNat + 32 := by
      rw [UInt32.toNat_add]
      have step : ('a'.val - 'A'.val).toNat = 32 := by decide
      omega
    exact sum
  · exact Or.inl rfl

theorem to_lower_again (c : Char) : c.toLower.toLower = c.toLower := by
  rcases to_lower_cases c with same | ⟨low, _, moved⟩
  · rw [same, same]
  · rcases to_lower_cases c.toLower with same | ⟨_, high, _⟩
    · exact same
    · omega

theorem token_visible {c : Char} (token : tokenChar c = true) : visibleChar c = true := by
  rw [tokenChar, Bool.or_eq_true] at token
  rcases token with letter | mark
  · simp only [Bool.or_eq_true, Bool.and_eq_true, decide_eq_true_eq] at letter
    simp only [visibleChar, Bool.or_eq_true, Bool.and_eq_true, decide_eq_true_eq]
    omega
  · have all : "!#$%&'*+-.^_`|~".toList.all visibleChar = true := by decide
    exact List.all_eq_true.mp all c (by simpa using mark)

theorem encode_visible {c : Char} (seen : visibleChar c = true) :
    String.utf8EncodeChar c = [UInt8.ofNat c.toNat] := by
  have small : c.val.toNat ≤ 127 := by
    simp only [visibleChar, Bool.or_eq_true, beq_iff_eq, Bool.and_eq_true, decide_eq_true_eq,
      Char.toNat] at seen
    omega
  simp only [String.utf8EncodeChar, small, ↓reduceIte]
  rfl

theorem utf8_visible {s : String} (seen : ∀ c ∈ s.toList, visibleChar c = true) :
    utf8 s = s.toList.map fun c => UInt8.ofNat c.toNat := by
  unfold utf8
  generalize s.toList = cs at seen
  induction cs with
  | nil => rfl
  | cons c cs ih =>
    rw [List.flatMap_cons, List.map_cons, encode_visible (seen c (by simp)),
      ih fun d mem => seen d (List.mem_cons_of_mem c mem)]
    rfl

theorem byte_of_visible {c : Char} (seen : visibleChar c = true) :
    visible (UInt8.ofNat c.toNat) = true ∧ Char.ofNat (UInt8.ofNat c.toNat).toNat = c := by
  simp only [visibleChar, Bool.or_eq_true, beq_iff_eq, Bool.and_eq_true, decide_eq_true_eq] at seen
  have same : (UInt8.ofNat c.toNat).toNat = c.toNat := by
    rw [UInt8.toNat_ofNat']
    omega
  refine ⟨?_, by rw [same, Char.ofNat_toNat]⟩
  simp only [visible, Bool.or_eq_true, beq_iff_eq, Bool.and_eq_true, decide_eq_true_eq,
    UInt8.le_iff_toNat_le, UInt8.lt_iff_toNat_lt, same, ← UInt8.toNat_inj]
  exact seen

theorem utf8_chars {s : String} (seen : ∀ c ∈ s.toList, visibleChar c = true) :
    String.ofList ((utf8 s).map fun b => Char.ofNat b.toNat) = s := by
  rw [utf8_visible seen, List.map_map]
  have back : s.toList.map ((fun b : UInt8 => Char.ofNat b.toNat) ∘ fun c => UInt8.ofNat c.toNat) =
      s.toList := by
    conv_rhs => rw [← List.map_id s.toList]
    exact List.map_congr_left fun c mem => (byte_of_visible (seen c mem)).2
  rw [back, String.ofList_toList]

theorem utf8_all_visible {s : String} (seen : ∀ c ∈ s.toList, visibleChar c = true) :
    (utf8 s).all visible = true := by
  rw [utf8_visible seen, List.all_map, List.all_eq_true]
  intro c mem
  exact (byte_of_visible (seen c mem)).1

theorem to_str_utf8 {s : String} (seen : ∀ c ∈ s.toList, visibleChar c = true) :
    toStr (utf8 s) = some s := by
  rw [toStr, if_pos (utf8_all_visible seen), utf8_chars seen]

theorem utf8_to_str {value : Bytes} {s : String} (read : toStr value = some s) :
    utf8 s = value := by
  rw [utf8_visible (to_str_visible read)]
  unfold toStr at read
  split at read
  · rename_i all
    cases read
    rw [String.toList_ofList, List.map_map]
    conv_rhs => rw [← List.map_id value]
    refine List.map_congr_left fun b mem => ?_
    have back := (visible_char_of_byte (List.all_eq_true.mp all b mem)).2
    rw [Function.comp_apply, back, UInt8.ofNat_toNat, id]
  · cases read

theorem extract_header_utf8 {hm : HeaderMap} {name s or : String}
    (first : get hm name = some (utf8 s)) (seen : ∀ c ∈ s.toList, visibleChar c = true) :
    extractHeader hm name or = s := by
  rw [extractHeader, first]
  exact congrArg (Option.getD · or) (to_str_utf8 seen)

section Building

/-- `append`: behind the name's other values, or at the end. -/
def append (name : String) (value : Bytes) : HeaderMap → HeaderMap
  | [] => [(name, value)]
  | h :: rest =>
      if h.1 = name ∧ ∀ r ∈ rest, r.1 ≠ name then h :: (name, value) :: rest
      else h :: append name value rest

/-- `insert`: in place of the name's values, or at the end. -/
def insert (name : String) (value : Bytes) : HeaderMap → HeaderMap
  | [] => [(name, value)]
  | h :: rest =>
      if h.1 = name then (name, value) :: rest.filter fun r => r.1 ≠ name
      else h :: insert name value rest

def Ends (hm : HeaderMap) (name : String) : Prop :=
  ∃ zs ws, hm = zs ++ ws ∧ (∀ z ∈ zs, z.1 ≠ name) ∧ ∀ w ∈ ws, w.1 = name

/-- A name's values stand together, as a map iterates. -/
def Grouped (hm : HeaderMap) : Prop := ∀ xs h ys, hm = xs ++ h :: ys → Ends xs h.1

theorem append_ends {hm : HeaderMap} {name : String} (ends : Ends hm name) (value : Bytes) :
    append name value hm = hm ++ [(name, value)] := by
  obtain ⟨zs, ws, rfl, others, same⟩ := ends
  induction zs with
  | nil =>
    rw [List.nil_append]
    induction ws with
    | nil => rfl
    | cons w ws ih =>
      have later : ∀ x ∈ ws, x.1 = name := fun x mem => same x (List.mem_cons_of_mem w mem)
      cases ws with
      | nil => simp [append, same w List.mem_cons_self]
      | cons x xs =>
        have further : ¬ ∀ r ∈ x :: xs, r.1 ≠ name := fun none_left =>
          none_left x List.mem_cons_self (later x List.mem_cons_self)
        rw [append, if_neg fun both => further both.2, ih later]
        rfl
  | cons z zs ih =>
    have first : z.1 ≠ name := others z List.mem_cons_self
    rw [List.cons_append, append, if_neg fun both => first both.1,
      ih fun x mem => others x (List.mem_cons_of_mem z mem), List.cons_append]

theorem insert_fresh {hm : HeaderMap} {name : String} (fresh : ∀ h ∈ hm, h.1 ≠ name)
    (value : Bytes) : insert name value hm = hm ++ [(name, value)] := by
  induction hm with
  | nil => rfl
  | cons h rest ih =>
    rw [insert, if_neg (fresh h List.mem_cons_self),
      ih fun r mem => fresh r (List.mem_cons_of_mem h mem), List.cons_append]

theorem grouped_filter {hm : HeaderMap} (grouped : Grouped hm) (p : String × Bytes → Bool) :
    Grouped (hm.filter p) := by
  intro xs h ys split
  obtain ⟨before, after, rfl, rfl, rest⟩ := List.filter_eq_append_iff.mp split
  obtain ⟨skipped, later, rfl, none_kept, _, _⟩ := List.filter_eq_cons_iff.mp rest
  have whole : before ++ (skipped ++ h :: later) = (before ++ skipped) ++ h :: later := by simp
  obtain ⟨zs, ws, same, others, ending⟩ := grouped _ h later whole
  refine ⟨zs.filter p, ws.filter p, ?_, fun z mem => others z (List.mem_of_mem_filter mem),
    fun w mem => ending w (List.mem_of_mem_filter mem)⟩
  have nothing : skipped.filter p = [] := List.filter_eq_nil_iff.mpr none_kept
  rw [← List.filter_append, ← same, List.filter_append, nothing, List.append_nil]

theorem grouped_nil : Grouped [] := by
  intro xs h ys split
  simp at split

theorem grouped_snoc {hm : HeaderMap} {h : String × Bytes} (grouped : Grouped hm)
    (ends : Ends hm h.1) : Grouped (hm ++ [h]) := by
  intro xs x ys split
  rcases List.eq_nil_or_concat ys with rfl | ⟨front, last, rfl⟩
  · obtain ⟨rfl, same⟩ := List.append_inj' split rfl
    cases same
    exact ends
  · have whole : hm ++ [h] = (xs ++ x :: front) ++ [last] := by
      rw [split, List.concat_eq_append, List.append_assoc, List.cons_append]
    exact grouped xs x front (List.append_inj' whole rfl).1

end Building

section Removing

def getAll (hm : HeaderMap) (name : String) : List Bytes :=
  (hm.filter fun h => h.1 = name).map Prod.snd

/-- `remove`: the name goes with all its values, and the map's last name takes its place. -/
def remove (name : String) (hm : HeaderMap) : HeaderMap :=
  let before := hm.takeWhile fun h => h.1 ≠ name
  let behind := (hm.dropWhile fun h => h.1 ≠ name).filter fun h => h.1 ≠ name
  match behind.getLast? with
  | none => before
  | some last =>
      before ++ (behind.filter (fun h => h.1 = last.1) ++ behind.filter fun h => h.1 ≠ last.1)

def mapValues (f : Bytes → Bytes) (hm : HeaderMap) : HeaderMap := hm.map fun h => (h.1, f h.2)

theorem get_all_append (hm hm' : HeaderMap) (name : String) :
    getAll (hm ++ hm') name = getAll hm name ++ getAll hm' name := by
  simp [getAll]

theorem mem_get_all {hm : HeaderMap} {name : String} {value : Bytes} :
    value ∈ getAll hm name ↔ (name, value) ∈ hm := by
  simp [getAll]

theorem get_all_none {hm : HeaderMap} {name : String} (fresh : ∀ h ∈ hm, h.1 ≠ name) :
    getAll hm name = [] := by
  rw [getAll, List.filter_eq_nil_iff.mpr fun h mem => by simpa using fresh h mem, List.map_nil]

theorem get_eq_head (hm : HeaderMap) (name : String) : get hm name = (getAll hm name).head? := by
  induction hm with
  | nil => rfl
  | cons h hm ih =>
    by_cases here : h.1 = name
    · simp [get, getAll, here]
    · have rest : getAll (h :: hm) name = getAll hm name := by simp [getAll, here]
      rw [rest, ← ih]
      simp [get, here]

theorem get_all_filter {hm : HeaderMap} {name : String} (p : String × Bytes → Bool)
    (keeps : ∀ h ∈ hm, h.1 = name → p h = true) : getAll (hm.filter p) name = getAll hm name := by
  rw [getAll, List.filter_filter, getAll]
  refine congrArg (List.map Prod.snd) (List.filter_congr fun h mem => ?_)
  by_cases named : h.1 = name
  · simp [named, keeps h mem named]
  · simp [named]

theorem get_all_regrouped (hm : HeaderMap) (first name : String) :
    getAll (hm.filter (fun h => h.1 = first) ++ hm.filter fun h => h.1 ≠ first) name =
      getAll hm name := by
  rw [get_all_append]
  by_cases here : name = first
  · have moved : getAll (hm.filter fun h => h.1 = first) name = getAll hm name :=
      get_all_filter _ fun h _ named => by simp [named, here]
    have left : getAll (hm.filter fun h => h.1 ≠ first) name = [] :=
      get_all_none fun h mem => by simpa [here] using (List.mem_filter.mp mem).2
    rw [moved, left, List.append_nil]
  · have moved : getAll (hm.filter fun h => h.1 = first) name = [] := by
      refine get_all_none fun h mem named => here (named.symm.trans ?_)
      simpa using (List.mem_filter.mp mem).2
    have left : getAll (hm.filter fun h => h.1 ≠ first) name = getAll hm name :=
      get_all_filter _ fun h _ named => by simp [named, here]
    rw [moved, left, List.nil_append]

theorem get_all_remove_same (name : String) (hm : HeaderMap) : getAll (remove name hm) name = [] := by
  have ahead : ∀ h ∈ hm.takeWhile (fun h => h.1 ≠ name), h.1 ≠ name := fun h mem => by
    simpa using List.mem_takeWhile_imp mem
  have behind : ∀ h ∈ (hm.dropWhile fun h => h.1 ≠ name).filter (fun h => h.1 ≠ name),
      h.1 ≠ name := fun h mem => by simpa using (List.mem_filter.mp mem).2
  unfold remove
  dsimp only
  split
  · exact get_all_none ahead
  · rw [get_all_append, get_all_regrouped, get_all_none ahead, get_all_none behind]
    rfl

theorem get_all_remove_other {name other : String} (differs : other ≠ name) (hm : HeaderMap) :
    getAll (remove name hm) other = getAll hm other := by
  have behind : getAll ((hm.dropWhile fun h => h.1 ≠ name).filter fun h => h.1 ≠ name) other =
      getAll (hm.dropWhile fun h => h.1 ≠ name) other :=
    get_all_filter _ fun h _ named => by simp [named, differs]
  have whole : getAll (hm.takeWhile fun h => h.1 ≠ name) other ++
      getAll (hm.dropWhile fun h => h.1 ≠ name) other = getAll hm other := by
    rw [← get_all_append, List.takeWhile_append_dropWhile]
  unfold remove
  dsimp only
  split
  · rename_i nothing
    rw [List.getLast?_eq_none_iff.mp nothing] at behind
    rw [← whole, ← behind]
    exact (List.append_nil _).symm
  · rw [get_all_append, get_all_regrouped, behind, whole]

theorem get_all_map_values (f : Bytes → Bytes) (hm : HeaderMap) (name : String) :
    getAll (mapValues f hm) name = (getAll hm name).map f := by
  simp [getAll, mapValues, List.filter_map, Function.comp_def]

end Removing
end HttpHeaders
