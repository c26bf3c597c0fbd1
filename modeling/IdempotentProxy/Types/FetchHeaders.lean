import Mathlib.Data.List.TakeWhile
import IdempotentProxy.Foundations.Prefixes
import IdempotentProxy.Types.Headers

/-!
`Headers` of the Fetch standard: a list of names and values, the names in lower case
as they are iterated. `append` and `set` take white space off a value's ends and refuse
what no header may hold; iteration sorts by name and joins the values of one name by a
comma, cookies apart.
-/
namespace FetchHeaders
open HttpHeaders (tokenChar to_lower_again)

abbrev Entry := String × String

def validName (name : String) : Bool := name ≠ "" && name.toList.all tokenChar

def validChar (c : Char) : Bool := c.toNat ≠ 0 && c.toNat ≠ 10 && c.toNat ≠ 13 && c.toNat < 256

def validValue (value : String) : Bool := value.toList.all validChar

def isSpace (c : Char) : Bool := c.toNat = 9 || c.toNat = 10 || c.toNat = 13 || c.toNat = 32

def normalizeValue (value : String) : String :=
  String.ofList ((value.toList.dropWhile isSpace).reverse.dropWhile isSpace).reverse

def lower (name : String) : String := String.ofList (name.toList.map Char.toLower)

structure Valid (h : Entry) : Prop where
  name : validName h.1 = true
  lower : lower h.1 = h.1
  value : validValue h.2 = true

structure Headers where
  list : List Entry
  valid : ∀ h ∈ list, Valid h
  trimmed : ∀ h ∈ list, normalizeValue h.2 = h.2

def Headers.empty : Headers := ⟨[], by simp, by simp⟩

section Normalizing

theorem normalize_again (value : String) :
    normalizeValue (normalizeValue value) = normalizeValue value := by
  unfold normalizeValue
  rw [String.toList_ofList]
  exact congrArg String.ofList (Prefixes.trimmed_again isSpace value.toList)

theorem normalize_valid {value : String} (valid : validValue value = true) :
    validValue (normalizeValue value) = true := by
  have all := List.all_eq_true.mp valid
  refine List.all_eq_true.mpr fun c mem => all c ?_
  rw [normalizeValue, String.toList_ofList, List.mem_reverse] at mem
  have inside := (List.dropWhile_suffix _).subset mem
  exact (List.dropWhile_suffix _).subset (List.mem_reverse.mp inside)

theorem lower_again (name : String) : lower (lower name) = lower name := by
  unfold lower
  rw [String.toList_ofList, List.map_map]
  exact congrArg String.ofList (List.map_congr_left fun c _ => to_lower_again c)

end Normalizing

def insertEntry (name value : String) : List Entry → List Entry
  | [] => [(name, value)]
  | (m, w) :: rest =>
      if name < m then (name, value) :: (m, w) :: rest
      else if name = m ∧ name ≠ "set-cookie" then (m, w ++ ", " ++ value) :: rest
      else (m, w) :: insertEntry name value rest

def iterate (list : List Entry) : List Entry :=
  list.foldl (fun sorted h => insertEntry h.1 h.2 sorted) []

def valuesOf (name : String) (list : List Entry) : List String :=
  (list.filter fun h => h.1 = name).map Prod.snd

def joinTo : Option String → String → String
  | none, v => v
  | some w, v => w ++ ", " ++ v

def join : List String → Option String
  | [] => none
  | v :: vs => some (vs.foldl (fun w v => joinTo (some w) v) v)

def Headers.get (hs : Headers) (name : String) : Option String :=
  join (valuesOf (lower name) hs.list)

section Sorting

def Canonical (list : List Entry) : Prop :=
  list.Pairwise fun a b => a.1 < b.1 ∨ (a.1 = b.1 ∧ a.1 = "set-cookie")

theorem insert_names {name value : String} {list : List Entry} :
    ∀ h ∈ insertEntry name value list, h.1 = name ∨ ∃ g ∈ list, h.1 = g.1 := by
  induction list with
  | nil =>
    intro h mem
    rw [List.mem_singleton.mp mem]
    exact Or.inl rfl
  | cons g rest ih =>
    obtain ⟨m, w⟩ := g
    intro h mem
    unfold insertEntry at mem
    split at mem
    · rcases List.mem_cons.mp mem with rfl | inside
      · exact Or.inl rfl
      · exact Or.inr ⟨h, inside, rfl⟩
    · split at mem
      · rcases List.mem_cons.mp mem with rfl | inside
        · exact Or.inr ⟨(m, w), List.mem_cons_self, rfl⟩
        · exact Or.inr ⟨h, List.mem_cons_of_mem _ inside, rfl⟩
      · rcases List.mem_cons.mp mem with rfl | inside
        · exact Or.inr ⟨(m, w), List.mem_cons_self, rfl⟩
        · rcases ih h inside with same | ⟨g, there, same⟩
          · exact Or.inl same
          · exact Or.inr ⟨g, List.mem_cons_of_mem _ there, same⟩

theorem insert_canonical {list : List Entry} (sorted : Canonical list) (name value : String) :
    Canonical (insertEntry name value list) := by
  induction list with
  | nil => exact List.pairwise_singleton _ _
  | cons g rest ih =>
    obtain ⟨m, w⟩ := g
    obtain ⟨first, tail⟩ := List.pairwise_cons.mp sorted
    unfold insertEntry
    split
    · rename_i below
      refine List.pairwise_cons.mpr ⟨?_, sorted⟩
      intro h mem
      rcases List.mem_cons.mp mem with rfl | inside
      · exact Or.inl below
      · rcases first h inside with later | ⟨same, _⟩
        · exact Or.inl (lt_trans below later)
        · exact Or.inl (same ▸ below)
    · rename_i not_below
      split
      · exact List.pairwise_cons.mpr ⟨first, tail⟩
      · rename_i apart
        refine List.pairwise_cons.mpr ⟨?_, ih tail⟩
        intro h mem
        rcases insert_names h mem with same | ⟨g, there, same⟩
        · rcases lt_trichotomy m name with above | equal | below
          · exact Or.inl (same ▸ above)
          · right
            have cookie : name = "set-cookie" := by
              by_contra other
              exact apart ⟨equal.symm, other⟩
            exact ⟨by rw [same, equal], by rw [equal, cookie]⟩
          · exact absurd below not_below
        · rcases first g there with later | ⟨equal, cookie⟩
          · exact Or.inl (same ▸ later)
          · exact Or.inr ⟨by rw [equal, same], cookie⟩

theorem iterate_append (list : List Entry) (h : Entry) :
    iterate (list ++ [h]) = insertEntry h.1 h.2 (iterate list) := by
  rw [iterate, List.foldl_append]
  rfl

theorem insert_filter {name value : String} {list : List Entry} (fresh : ∀ h ∈ list, h.1 ≠ name) :
    (insertEntry name value list).filter (fun h => h.1 ≠ name) = list := by
  have whole (rest : List Entry) (others : ∀ h ∈ rest, h.1 ≠ name) :
      rest.filter (fun h => h.1 ≠ name) = rest :=
    List.filter_eq_self.mpr fun h mem => by simpa using others h mem
  induction list with
  | nil => simp [insertEntry]
  | cons g rest ih =>
    obtain ⟨m, w⟩ := g
    obtain ⟨first, tail⟩ := List.forall_mem_cons.mp fresh
    have differ : m ≠ name := first
    unfold insertEntry
    split
    · rw [List.filter_cons_of_neg (by simp), whole _ fresh]
    · rw [if_neg fun both => differ both.1.symm, List.filter_cons_of_pos (by simpa using differ),
        ih tail]

theorem iterate_canonical (list : List Entry) : Canonical (iterate list) := by
  unfold iterate
  have start : Canonical [] := List.Pairwise.nil
  generalize [] = sorted at start
  induction list generalizing sorted with
  | nil => exact start
  | cons h rest ih => exact ih _ (insert_canonical start h.1 h.2)

theorem insert_last {list : List Entry} {name value : String}
    (last : ∀ h ∈ list, h.1 < name ∨ (h.1 = name ∧ h.1 = "set-cookie")) :
    insertEntry name value list = list ++ [(name, value)] := by
  induction list with
  | nil => rfl
  | cons g rest ih =>
    obtain ⟨m, w⟩ := g
    have later := ih fun h mem => last h (List.mem_cons_of_mem _ mem)
    rcases last (m, w) List.mem_cons_self with below | ⟨same, cookie⟩
    · have not_below : ¬ name < m := lt_asymm below
      have other : ¬ (name = m ∧ name ≠ "set-cookie") := fun both => (ne_of_lt below) both.1.symm
      rw [insertEntry, if_neg not_below, if_neg other, later, List.cons_append]
    · have not_below : ¬ name < m := by
        rw [← same]
        exact lt_irrefl _
      have other : ¬ (name = m ∧ name ≠ "set-cookie") := fun both => both.2 (same ▸ cookie)
      rw [insertEntry, if_neg not_below, if_neg other, later, List.cons_append]

theorem iterate_again {list : List Entry} (sorted : Canonical list) : iterate list = list := by
  have grow : ∀ before after : List Entry, Canonical (before ++ after) →
      after.foldl (fun done h => insertEntry h.1 h.2 done) before = before ++ after := by
    intro before after
    induction after generalizing before with
    | nil =>
      intro _
      exact (List.append_nil before).symm
    | cons h rest ih =>
      intro both
      have cut : before ++ h :: rest = before ++ [h] ++ rest := by simp
      have last : insertEntry h.1 h.2 before = before ++ [h] := insert_last fun g mem =>
        (List.pairwise_append.mp both).2.2 g mem h List.mem_cons_self
      rw [List.foldl_cons, last, cut]
      exact ih (before ++ [h]) (cut ▸ both)
  exact grow [] list sorted

theorem canonical_sublist {list part : List Entry} (sorted : Canonical list)
    (sub : part.Sublist list) : Canonical part := List.Pairwise.sublist sub sorted

end Sorting

section Values
variable {name : String}

theorem values_insert_other {other value : String} {list : List Entry} (differ : other ≠ name) :
    valuesOf name (insertEntry other value list) = valuesOf name list := by
  unfold valuesOf
  induction list with
  | nil => simp [insertEntry, differ]
  | cons g rest ih =>
    obtain ⟨m, w⟩ := g
    unfold insertEntry
    split
    · simp [differ]
    · split
      · rename_i both
        have apart : m ≠ name := both.1 ▸ differ
        simp [apart]
      · by_cases here : m = name
        · simp [here, ih]
        · simp [here, ih]

theorem values_none_iff {list : List Entry} :
    valuesOf name list = [] ↔ ∀ h ∈ list, h.1 ≠ name := by
  simp [valuesOf, List.filter_eq_nil_iff]

theorem values_cons_other {h : Entry} {rest : List Entry} (other : h.1 ≠ name) :
    valuesOf name (h :: rest) = valuesOf name rest := by simp [valuesOf, other]

theorem values_cons_same (value : String) (rest : List Entry) :
    valuesOf name ((name, value) :: rest) = value :: valuesOf name rest := by simp [valuesOf]

theorem values_above {m u : String} {rest : List Entry} (sorted : Canonical ((m, u) :: rest))
    (above : name < m ∨ (name = m ∧ name ≠ "set-cookie")) : valuesOf name rest = [] := by
  obtain ⟨first, _⟩ := List.pairwise_cons.mp sorted
  refine values_none_iff.mpr fun h mem same => ?_
  rcases first h mem with later | ⟨equal, cookie⟩
  · rcases above with below | ⟨here, _⟩
    · exact lt_asymm below (same ▸ later)
    · exact absurd later (by rw [same, here]; exact lt_irrefl _)
  · rcases above with below | ⟨here, single⟩
    · exact (ne_of_lt below).symm (equal.trans same)
    · exact single (here.trans cookie)

theorem values_insert_same {value : String} {list : List Entry} (sorted : Canonical list)
    (single : name ≠ "set-cookie") {w : Option String}
    (before : valuesOf name list = w.toList) :
    valuesOf name (insertEntry name value list) =
      [joinTo w value] := by
  induction list with
  | nil =>
    cases w with
    | none => simp [insertEntry, valuesOf, joinTo]
    | some w => simp [valuesOf] at before
  | cons g rest ih =>
    obtain ⟨m, u⟩ := g
    obtain ⟨first, tail⟩ := List.pairwise_cons.mp sorted
    unfold insertEntry
    by_cases below : name < m
    · have absent := values_above sorted (Or.inl below)
      have other : m ≠ name := (ne_of_lt below).symm
      rw [values_cons_other other, absent] at before
      rw [if_pos below, values_cons_same, values_cons_other other, absent]
      cases w with
      | none => rfl
      | some w => cases before
    · rw [if_neg below]
      by_cases here : name = m
      · subst here
        have absent := values_above sorted (Or.inr ⟨rfl, single⟩)
        rw [values_cons_same, absent] at before
        rw [if_pos ⟨rfl, single⟩, values_cons_same, absent]
        cases w with
        | none => cases before
        | some w =>
          cases before
          rfl
      · have other : m ≠ name := fun same => here same.symm
        rw [values_cons_other other] at before
        rw [if_neg fun both => here both.1, values_cons_other other]
        exact ih tail before

theorem values_iterate (single : name ≠ "set-cookie") (list : List Entry) :
    valuesOf name (iterate list) = (join (valuesOf name list)).toList := by
  have grow : ∀ (sorted : List Entry) (w : Option String), Canonical sorted →
      valuesOf name sorted = w.toList →
      valuesOf name (list.foldl (fun done h => insertEntry h.1 h.2 done) sorted) =
        (join (w.toList ++ valuesOf name list)).toList := by
    induction list with
    | nil =>
      intro sorted w _ before
      rw [List.foldl_nil, before]
      cases w <;> rfl
    | cons h rest ih =>
      intro sorted w canonical before
      obtain ⟨m, v⟩ := h
      have next := insert_canonical canonical m v
      rw [List.foldl_cons]
      by_cases here : m = name
      · subst here
        rw [ih _ (some _) next (values_insert_same canonical single before), values_cons_same]
        cases w <;> rfl
      · rw [ih _ w next ((values_insert_other here).trans before), values_cons_other here]
  exact grow [] none List.Pairwise.nil rfl

theorem values_insert_cookie {value : String} {list : List Entry} (sorted : Canonical list) :
    valuesOf "set-cookie" (insertEntry "set-cookie" value list) =
      valuesOf "set-cookie" list ++ [value] := by
  induction list with
  | nil => rfl
  | cons g rest ih =>
    obtain ⟨m, w⟩ := g
    obtain ⟨_, tail⟩ := List.pairwise_cons.mp sorted
    unfold insertEntry
    split
    · rename_i below
      have other : m ≠ "set-cookie" := (ne_of_lt below).symm
      rw [values_cons_same, values_cons_other other, values_above sorted (Or.inl below)]
      rfl
    · rw [if_neg fun both => both.2 rfl]
      by_cases here : m = "set-cookie"
      · rw [here, values_cons_same, values_cons_same, ih tail]
        rfl
      · rw [values_cons_other here, values_cons_other here, ih tail]

theorem values_iterate_cookie (list : List Entry) :
    valuesOf "set-cookie" (iterate list) = valuesOf "set-cookie" list := by
  have grow : ∀ sorted : List Entry, Canonical sorted →
      valuesOf "set-cookie" (list.foldl (fun done h => insertEntry h.1 h.2 done) sorted) =
        valuesOf "set-cookie" sorted ++ valuesOf "set-cookie" list := by
    induction list with
    | nil => exact fun sorted _ => (List.append_nil _).symm
    | cons h rest ih =>
      intro sorted canonical
      obtain ⟨m, v⟩ := h
      rw [List.foldl_cons, ih _ (insert_canonical canonical m v)]
      by_cases here : m = "set-cookie"
      · subst here
        rw [values_insert_cookie canonical, values_cons_same, List.append_assoc]
        rfl
      · rw [values_insert_other here, values_cons_other here]
  exact grow [] List.Pairwise.nil

end Values

section Joining
open Prefixes

theorem join_concat (vs : List String) (v : String) :
    join (vs ++ [v]) = some (joinTo (join vs) v) := by
  cases vs with
  | nil => rfl
  | cons w vs =>
    rw [List.cons_append, join, List.foldl_append]
    rfl

theorem normalize_eq_iff {v : String} : normalizeValue v = v ↔
    (v.toList.dropWhile isSpace).rdropWhile isSpace = v.toList := by
  rw [← String.toList_inj, normalizeValue, String.toList_ofList]
  rfl

theorem join_trimmed {vs : List String} (trimmed : ∀ v ∈ vs, normalizeValue v = v)
    (filled : ∀ v ∈ vs, v ≠ "") {joined : String} (made : join vs = some joined) :
    normalizeValue joined = joined ∧ joined ≠ "" := by
  induction vs using List.reverseRecOn generalizing joined with
  | nil => cases made
  | append_singleton vs v ih =>
    rw [join_concat] at made
    cases made
    have last := trimmed v (by simp)
    have ends : v ≠ "" := filled v (by simp)
    cases before : join vs with
    | none => exact ⟨last, ends⟩
    | some w =>
      obtain ⟨first, opens⟩ := ih (fun u mem => trimmed u (by simp [mem]))
        (fun u mem => filled u (by simp [mem])) before
      have nonempty {s : String} (some_char : s ≠ "") : s.toList ≠ [] := fun none_left =>
        some_char (String.toList_eq_nil_iff.mp none_left)
      refine ⟨?_, ?_⟩
      · rw [normalize_eq_iff] at first last ⊢
        simp only [joinTo, String.toList_append]
        exact trimmed_between first (nonempty opens) last (nonempty ends) _
      · intro empty
        have chars := congrArg String.toList empty
        simp [joinTo] at chars

theorem join_starts {vs : List String} {start joined : String} (plain : ',' ∉ start.toList)
    (made : join vs = some joined) (starts : startsWith joined start = true) :
    ∃ v ∈ vs, startsWith v start = true := by
  induction vs using List.reverseRecOn generalizing joined with
  | nil => cases made
  | append_singleton vs v ih =>
    rw [join_concat] at made
    cases made
    cases before : join vs with
    | none =>
      rw [before] at starts
      exact ⟨v, by simp, starts⟩
    | some w =>
      rw [before] at starts
      have first : startsWith w start = true := by
        obtain ⟨rest, same⟩ := starts_with_iff.mp starts
        have chars := congrArg String.toList same
        simp only [joinTo, String.toList_append] at chars
        rw [List.append_assoc] at chars
        rw [startsWith, List.isPrefixOf_iff_prefix]
        rcases List.append_eq_append_iff.mp chars with ⟨t, longer, cut⟩ | ⟨t, longer, _⟩
        · cases t with
          | nil => exact ⟨[], by rw [longer, List.append_nil, List.append_nil]⟩
          | cons c t =>
            have comma : c = ',' := (List.cons.inj cut).1.symm
            exact absurd (by rw [longer, comma]; simp) plain
        · exact ⟨t, longer.symm⟩
      obtain ⟨u, mem, here⟩ := ih before first
      exact ⟨u, by simp [mem], here⟩

end Joining

section Building

theorem valid_insert {name value : String} {list : List Entry} (new : Valid (name, value))
    (old : ∀ h ∈ list, Valid h) : ∀ h ∈ insertEntry name value list, Valid h := by
  induction list with
  | nil =>
    intro h mem
    rw [List.mem_singleton.mp mem]
    exact new
  | cons g rest ih =>
    obtain ⟨m, w⟩ := g
    have tail : ∀ h ∈ rest, Valid h := fun h mem => old h (List.mem_cons_of_mem _ mem)
    have head : Valid (m, w) := old (m, w) List.mem_cons_self
    unfold insertEntry
    intro h mem
    split at mem
    · rcases List.mem_cons.mp mem with rfl | inside
      · exact new
      · exact old h inside
    · split at mem
      · rcases List.mem_cons.mp mem with rfl | inside
        · refine ⟨head.name, head.lower, ?_⟩
          have comma : ", ".toList.all validChar = true := by decide
          have first := head.value
          have second := new.value
          simp only [validValue, String.toList_append, List.all_append, Bool.and_eq_true]
            at first second ⊢
          exact ⟨⟨first, comma⟩, second⟩
        · exact tail h inside
      · rcases List.mem_cons.mp mem with rfl | inside
        · exact head
        · exact ih tail h inside

theorem valid_iterate {list : List Entry} (all : ∀ h ∈ list, Valid h) :
    ∀ h ∈ iterate list, Valid h := by
  unfold iterate
  have start : ∀ h ∈ ([] : List Entry), Valid h := by simp
  generalize [] = sorted at start
  induction list generalizing sorted with
  | nil => exact start
  | cons h rest ih =>
    exact ih (fun g mem => all g (List.mem_cons_of_mem _ mem)) _
      (valid_insert (all h List.mem_cons_self) start)

def entryOf (name value : String) : Entry := (lower name, normalizeValue value)

/-- What `append` and `set` let through, a TypeError otherwise. -/
def accepted (name value : String) : Bool :=
  validName (lower name) && validValue (normalizeValue value)

theorem accepted_valid {name value : String} (good : accepted name value = true) :
    Valid (entryOf name value) := by
  rw [accepted, Bool.and_eq_true] at good
  exact ⟨good.1, lower_again name, good.2⟩

theorem valid_accepted {name value : String} (valid : Valid (name, value)) :
    accepted name value = true ∧ entryOf name value = (name, normalizeValue value) := by
  have same : lower name = name := valid.lower
  have named : validName name = true := valid.name
  rw [accepted, entryOf, same, named, normalize_valid valid.value]
  exact ⟨rfl, rfl⟩

def Headers.append (hs : Headers) (name value : String) : Except String Headers :=
  if good : accepted name value = true then
    .ok ⟨hs.list ++ [entryOf name value],
      List.forall_mem_append.mpr ⟨hs.valid, List.forall_mem_singleton.mpr (accepted_valid good)⟩,
      List.forall_mem_append.mpr
        ⟨hs.trimmed, List.forall_mem_singleton.mpr (normalize_again value)⟩⟩
  else .error "TypeError"

/-- The first value of the name replaced and the others dropped, or a new entry. -/
def setEntry (entry : Entry) : List Entry → List Entry
  | [] => [entry]
  | h :: rest =>
      if h.1 = entry.1 then entry :: rest.filter fun r => r.1 ≠ entry.1
      else h :: setEntry entry rest

theorem set_entry_all {p : Entry → Prop} {entry : Entry} {list : List Entry} (new : p entry)
    (old : ∀ h ∈ list, p h) : ∀ h ∈ setEntry entry list, p h := by
  induction list with
  | nil => exact List.forall_mem_singleton.mpr new
  | cons g rest ih =>
    obtain ⟨first, tail⟩ := List.forall_mem_cons.mp old
    unfold setEntry
    split
    · exact List.forall_mem_cons.mpr ⟨new, fun h mem => tail h (List.mem_of_mem_filter mem)⟩
    · exact List.forall_mem_cons.mpr ⟨first, ih tail⟩

def Headers.set (hs : Headers) (name value : String) : Except String Headers :=
  if good : accepted name value = true then
    .ok ⟨setEntry (entryOf name value) hs.list, set_entry_all (accepted_valid good) hs.valid,
      set_entry_all (p := fun h => normalizeValue h.2 = h.2) (normalize_again value) hs.trimmed⟩
  else .error "TypeError"

/-- `new Headers(entries)` -/
def fillFrom (hs : Headers) : List Entry → Except String Headers
  | [] => .ok hs
  | h :: rest =>
      match hs.append h.1 h.2 with
      | .error err => .error err
      | .ok more => fillFrom more rest

def fill : List Entry → Except String Headers := fillFrom Headers.empty

theorem append_ok (hs : Headers) {name value : String} (valid : Valid (name, value)) :
    ∃ more, hs.append name value = .ok more ∧
      more.list = hs.list ++ [(name, normalizeValue value)] := by
  obtain ⟨good, entry⟩ := valid_accepted valid
  exact ⟨_, dif_pos good, congrArg (hs.list ++ [·]) entry⟩

theorem set_ok (hs : Headers) {name value : String} (valid : Valid (name, value)) :
    ∃ more, hs.set name value = .ok more ∧
      more.list = setEntry (name, normalizeValue value) hs.list := by
  obtain ⟨good, entry⟩ := valid_accepted valid
  exact ⟨_, dif_pos good, congrArg (setEntry · hs.list) entry⟩

theorem set_entry_fresh {entry : Entry} {list : List Entry} (fresh : ∀ h ∈ list, h.1 ≠ entry.1) :
    setEntry entry list = list ++ [entry] := by
  induction list with
  | nil => rfl
  | cons h rest ih =>
    obtain ⟨first, tail⟩ := List.forall_mem_cons.mp fresh
    rw [setEntry, if_neg first, ih tail, List.cons_append]

theorem fill_from_ok {hs more : Headers} {h : Entry} (appended : hs.append h.1 h.2 = .ok more)
    (rest : List Entry) : fillFrom hs (h :: rest) = fillFrom more rest := by
  change (match hs.append h.1 h.2 with
    | .error err => Except.error err
    | .ok more => fillFrom more rest) = _
  rw [appended]

theorem fill_ok {entries : List Entry} (all : ∀ h ∈ entries, Valid h) :
    ∃ hs, fill entries = .ok hs ∧ hs.list = entries.map fun h => (h.1, normalizeValue h.2) := by
  have grow : ∀ hs : Headers, ∃ more, fillFrom hs entries = .ok more ∧
      more.list = hs.list ++ entries.map fun h => (h.1, normalizeValue h.2) := by
    induction entries with
    | nil => exact fun hs => ⟨hs, rfl, (List.append_nil _).symm⟩
    | cons h rest ih =>
      intro hs
      obtain ⟨first, tail⟩ := List.forall_mem_cons.mp all
      obtain ⟨more, appended, list⟩ := append_ok hs first
      obtain ⟨last, filled, whole⟩ := ih tail more
      refine ⟨last, ?_, ?_⟩
      · exact (fill_from_ok appended rest).trans filled
      · rw [whole, list, List.append_assoc, List.map_cons, List.singleton_append]
  exact grow Headers.empty

end Building
end FetchHeaders
