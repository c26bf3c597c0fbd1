import Mathlib.Data.List.Sort
import IdempotentProxy.Foundations.Cbor
import IdempotentProxy.Foundations.JsonText
import IdempotentProxy.Server.ResponseData
import IdempotentProxy.Worker.ResponseData

/-!
`x-json-mask` on both proxies. The server collects the listed members in a sorted map,
the worker assigns them to a new object, whose array indices come first and whose
`__proto__` is an accessor as long as `Object.prototype` is what the lookup ends at.
-/
namespace Masking
open JsonText Results

abbrev Bytes := List UInt8

section Members
variable {α : Type}

def lookup (k : String) (ms : List (String × α)) : Option α :=
  (ms.find? fun m => m.1 = k).map Prod.snd

/-- A `serde_json::Map` without `preserve_order`. -/
def sortedMap (ms : List (String × α)) : List (String × α) :=
  ms.foldl (fun fields m => CachedResponse.insertField m.1 m.2 fields) []

/-- A data property, in its old place if the key has one. -/
def define (k : String) (v : α) : List (String × α) → List (String × α)
  | [] => [(k, v)]
  | m :: ms => if m.1 = k then (k, v) :: ms else m :: define k v ms

def properties (ms : List (String × α)) : List (String × α) :=
  ms.foldl (fun own m => define m.1 m.2 own) []

end Members

/-- The number a key is the canonical text of, below 2^32 - 1. -/
def arrayIndex (key : String) : Option Nat :=
  let cs := key.toList
  let n := cs.foldl (fun n c => n * 10 + (c.toNat - 48)) 0
  if cs ≠ [] ∧ cs.all Char.isDigit ∧ (cs = ['0'] ∨ cs.head? ≠ some '0') ∧ n < 2 ^ 32 - 1 then some n
  else none

/-- `OwnPropertyKeys`: array indices in ascending order, then the others as they came. -/
def ownOrder (keys : List String) : List String :=
  (keys.filter fun k => (arrayIndex k).isSome).insertionSort
      (fun k l => (arrayIndex k).getD 0 ≤ (arrayIndex l).getD 0) ++
    keys.filter fun k => (arrayIndex k).isNone

def enumerate {α : Type} (own : List (String × α)) : List (String × α) :=
  (ownOrder (own.map Prod.fst)).filterMap fun k => (lookup k own).map fun v => (k, v)

def serdePrint : Json → Text := print sortedMap

def stringifyValue : Json → Text := print fun ms => enumerate (properties ms)

/-- What the prototype of `newObj` is: as created, null, or an object of the body. -/
inductive Proto where
  | objectPrototype
  | null
  | value (v : Json)

structure JsObject where
  own : List (String × Json)
  proto : Proto

/-- Looking up `__proto__` from here comes to the accessor of `Object.prototype`. -/
def Proto.reachesSetter : Proto → Bool
  | .objectPrototype => true
  | .null => false
  | .value (.obj ms) => !(ms.map Prod.fst).contains "__proto__"
  | .value _ => true

def JsObject.setProto (o : JsObject) : Json → JsObject
  | .null => { o with proto := .null }
  | .obj ms => { o with proto := .value (.obj ms) }
  | .arr items => { o with proto := .value (.arr items) }
  | _ => o

def JsObject.assign (o : JsObject) (key : String) (v : Json) : JsObject :=
  if key = "__proto__" ∧ key ∉ o.own.map Prod.fst ∧ o.proto.reachesSetter then o.setProto v
  else { o with own := define key v o.own }

def JsObject.empty : JsObject := ⟨[], .objectPrototype⟩

def textBytes (t : Text) : Bytes := Cbor.utf8 (String.ofList t)

def serdeLibraries (base : CachedResponse.Libraries) (parse : Bytes → Except String Json) :
    CachedResponse.Libraries :=
  { base with
    Json := Json
    parseJson := parse
    jsonField := fun obj k =>
      match obj with
      | .obj ms => lookup k (sortedMap ms)
      | _ => none
    printJson := fun fields =>
      .ok (textBytes (printObject (fields.map fun m => (m.1, serdePrint m.2)))) }

/-- The JSON object behind `setBody`, with a parser. The own properties of arrays and
    strings are left out, and CBOR is not called for JSON. -/
def jsLibraries (base : WorkerResponse.Libraries) (parse : Bytes → Except String Json) :
    WorkerResponse.Libraries where
  Value := Json
  Object := JsObject
  parseJson := parse
  stringify := fun o =>
    textBytes (printObject (enumerate (o.own.map fun m => (m.1, stringifyValue m.2))))
  decodeCbor := fun _ => .error "not called"
  encodeCbor := fun _ => .error "not called"
  ownProperty := fun obj k =>
    match obj with
    | .obj ms => .ok (lookup k (properties ms))
    | .null => .error "TypeError"
    | _ => .ok none
  emptyObject := JsObject.empty
  assign := JsObject.assign
  encode := base.encode
  decode := base.decode

def arrivals (names : List String) : List String :=
  names.foldl (fun ks k => if k ∈ ks then ks else ks ++ [k]) []

/-- A second assignment to `__proto__` makes it a key. -/
def Sticky (members : List (String × Json)) : Prop :=
  match lookup "__proto__" members with
  | some .null => True
  | some (.obj ms) => "__proto__" ∈ ms.map Prod.fst
  | _ => False

def present (members : List (String × Json)) (names : List String) : List String :=
  names.filter fun k => (lookup k members).isSome

/-- The worker's keys are the server's, and in the server's order. -/
def Agrees (members : List (String × Json)) (names : List String) : Prop :=
  ("__proto__" ∈ present members names →
      Sticky members ∧ 2 ≤ (present members names).count "__proto__") ∧
    (ownOrder (arrivals ((present members names).erase "__proto__"))).Pairwise (· < ·)

/-- The mask is one text that both proxies read: a line of visible ASCII has neither of the
    two characters that only one of the trims takes off. -/
def IsHeader (s : String) : Prop :=
  s.toList.all (fun c => c.toNat ≠ 0x85 ∧ c.toNat ≠ 0xFEFF) = true

instance (s : String) : Decidable (IsHeader s) := inferInstanceAs (Decidable (_ = true))

section Names

theorem whitespace_same {c : Char} (header : c.toNat ≠ 0x85 ∧ c.toNat ≠ 0xFEFF) :
    WorkerResponse.isWhitespace c = CachedResponse.isWhitespace c := by
  simp only [WorkerResponse.isWhitespace, CachedResponse.isWhitespace, header.1, header.2,
    decide_false, Bool.or_false]

theorem drop_while_same {α : Type} {p q : α → Bool} {xs : List α} (same : ∀ x ∈ xs, p x = q x) :
    xs.dropWhile p = xs.dropWhile q := by
  induction xs with
  | nil => rfl
  | cons x xs ih =>
    rw [List.dropWhile_cons, List.dropWhile_cons, same x List.mem_cons_self,
      ih fun y mem => same y (List.mem_cons_of_mem x mem)]

theorem trim_same {cs : List Char} (header : ∀ c ∈ cs, c.toNat ≠ 0x85 ∧ c.toNat ≠ 0xFEFF) :
    WorkerResponse.trim cs = CachedResponse.trim cs := by
  have first := drop_while_same fun c mem => whitespace_same (header c mem)
  have kept : ∀ c ∈ (cs.dropWhile CachedResponse.isWhitespace).reverse, c ∈ cs := fun c mem =>
    (List.dropWhile_sublist _).subset (List.mem_reverse.mp mem)
  rw [WorkerResponse.trim, CachedResponse.trim, first,
    drop_while_same fun c mem => whitespace_same (header c (kept c mem))]

theorem part_chars {cs part : List Char} (mem : part ∈ cs.splitOn ',') :
    ∀ c ∈ part, c ∈ cs ∧ c ≠ ',' := by
  induction cs generalizing part with
  | nil =>
    have empty : part = [] := List.mem_singleton.mp mem
    rw [empty]
    simp
  | cons c cs ih =>
    have later : ∀ {part : List Char}, part ∈ cs.splitOn ',' → ∀ d ∈ part, d ∈ c :: cs ∧ d ≠ ',' :=
      fun mem d inside => ⟨List.mem_cons_of_mem c (ih mem d inside).1, (ih mem d inside).2⟩
    rw [List.splitOn_cons_eq_if_modifyHead] at mem
    split at mem
    · rcases List.mem_cons.mp mem with rfl | mem
      · simp
      · exact later mem
    · rename_i other
      cases parts : cs.splitOn ',' with
      | nil =>
        rw [parts] at mem
        cases mem
      | cons first rest =>
        rw [parts] at mem later
        rcases List.mem_cons.mp mem with rfl | mem
        · intro d inside
          rcases List.mem_cons.mp inside with rfl | inside
          · exact ⟨List.mem_cons_self, ne_of_beq_false (Bool.eq_false_iff.mpr other)⟩
          · exact later List.mem_cons_self d inside
        · exact later (List.mem_cons_of_mem first mem)

theorem listed_same {filtering : String} (header : IsHeader filtering) :
    WorkerResponse.listed filtering = CachedResponse.splitFiltering filtering := by
  have each : ∀ part ∈ filtering.toList.splitOn ',',
      WorkerResponse.trim part = CachedResponse.trim part :=
    fun part mem => trim_same fun c inside =>
      of_decide_eq_true (List.all_eq_true.mp header c (part_chars mem c inside).1)
  unfold WorkerResponse.listed CachedResponse.splitFiltering
  rw [List.map_congr_left fun part mem => by rw [each part mem]]
  generalize filtering.toList.splitOn ',' = parts
  induction parts with
  | nil => rfl
  | cons part parts ih =>
    rw [List.map_cons, List.filter_cons, List.filterMap_cons, ih]
    cases CachedResponse.trim part <;> simp

end Names
section Lookups
variable {α : Type}

theorem lookup_cons (k : String) (m : String × α) (ms : List (String × α)) :
    lookup k (m :: ms) = if m.1 = k then some m.2 else lookup k ms := by
  unfold lookup
  rw [List.find?_cons]
  by_cases same : m.1 = k <;> simp [same]

theorem lookup_insert (k k' : String) (v : α) (fields : List (String × α)) :
    lookup k (CachedResponse.insertField k' v fields) =
      if k' = k then some v else lookup k fields := by
  induction fields with
  | nil => exact lookup_cons k (k', v) []
  | cons m fields ih =>
    unfold CachedResponse.insertField
    by_cases before : k' < m.1
    · rw [if_pos before, lookup_cons]
    · rw [if_neg before]
      by_cases same : k' = m.1
      · rw [if_pos same, lookup_cons, lookup_cons, ← same]
        split <;> rfl
      · rw [if_neg same, lookup_cons, ih, lookup_cons]
        by_cases found : m.1 = k
        · rw [if_pos found, if_pos found, if_neg fun h => same (h.trans found.symm)]
        · rw [if_neg found, if_neg found]

theorem lookup_define (k k' : String) (v : α) (own : List (String × α)) :
    lookup k (define k' v own) = if k' = k then some v else lookup k own := by
  induction own with
  | nil => exact lookup_cons k (k', v) []
  | cons m own ih =>
    unfold define
    by_cases same : m.1 = k'
    · rw [if_pos same, lookup_cons, lookup_cons, same]
      split <;> rfl
    · rw [if_neg same, lookup_cons, ih, lookup_cons]
      by_cases found : m.1 = k
      · rw [if_pos found, if_pos found, if_neg fun h => same (found.trans h.symm)]
      · rw [if_neg found, if_neg found]

theorem lookup_some_iff {k : String} {ms : List (String × α)} :
    (lookup k ms).isSome ↔ k ∈ ms.map Prod.fst := by
  induction ms with
  | nil => simp [lookup]
  | cons m ms ih =>
    rw [lookup_cons, List.map_cons, List.mem_cons]
    by_cases same : m.1 = k
    · simp [same]
    · rw [if_neg same, ih, or_iff_right fun h => same h.symm]

theorem lookup_fold {put : List (String × α) → String × α → List (String × α)}
    (law : ∀ k m ms, lookup k (put ms m) = if m.1 = k then some m.2 else lookup k ms)
    {members : List (String × α)} (distinct : (members.map Prod.fst).Nodup) (k : String)
    (ms : List (String × α)) :
    lookup k (members.foldl put ms) = (lookup k members).or (lookup k ms) := by
  induction members generalizing ms with
  | nil => rfl
  | cons m members ih =>
    obtain ⟨fresh, others⟩ := List.nodup_cons.mp distinct
    rw [List.foldl_cons, ih others, law, lookup_cons]
    by_cases same : m.1 = k
    · have later : lookup k members = none := by
        rw [← Option.not_isSome_iff_eq_none, lookup_some_iff, ← same]
        exact fresh
      rw [if_pos same, if_pos same, later]
      rfl
    · rw [if_neg same, if_neg same]

theorem lookup_sorted_map {members : List (String × α)}
    (distinct : (members.map Prod.fst).Nodup) (k : String) :
    lookup k (sortedMap members) = lookup k members :=
  (lookup_fold (fun k m ms => lookup_insert k m.1 m.2 ms) distinct k []).trans Option.or_none

theorem lookup_properties {members : List (String × α)}
    (distinct : (members.map Prod.fst).Nodup) (k : String) :
    lookup k (properties members) = lookup k members :=
  (lookup_fold (fun k m ms => lookup_define k m.1 m.2 ms) distinct k []).trans Option.or_none

theorem map_keys (value : String → α) (ks : List String) :
    (ks.map fun k => (k, value k)).map Prod.fst = ks := by
  rw [List.map_map]
  exact List.map_id ks

theorem lookup_map {value : String → α} {ks : List String} {k : String} (mem : k ∈ ks) :
    lookup k (ks.map fun k => (k, value k)) = some (value k) := by
  induction ks with
  | nil => cases mem
  | cons l ks ih =>
    rw [List.map_cons, lookup_cons]
    by_cases same : l = k
    · rw [if_pos same, same]
    · rw [if_neg same]
      exact ih ((List.mem_cons.mp mem).resolve_left fun h => same h.symm)

end Lookups
section Sorted
variable {α : Type}

theorem insert_sorted {k : String} {v : α} {fields : List (String × α)}
    (sorted : (fields.map Prod.fst).Pairwise (· < ·)) :
    ((CachedResponse.insertField k v fields).map Prod.fst).Pairwise (· < ·) := by
  induction fields with
  | nil => exact List.pairwise_singleton _ k
  | cons m fields ih =>
    obtain ⟨least, rest⟩ := List.pairwise_cons.mp sorted
    unfold CachedResponse.insertField
    by_cases before : k < m.1
    · rw [if_pos before]
      refine List.pairwise_cons.mpr ⟨fun l mem => ?_, sorted⟩
      rcases List.mem_cons.mp mem with rfl | later
      · exact before
      · exact before.trans (least l later)
    · rw [if_neg before]
      by_cases same : k = m.1
      · rw [if_pos same, same]
        exact sorted
      · rw [if_neg same]
        refine List.pairwise_cons.mpr ⟨fun l mem => ?_, ih rest⟩
        have there := lookup_some_iff.mpr mem
        rw [lookup_insert] at there
        split at there
        · rename_i inserted
          rw [← inserted]
          exact lt_of_le_of_ne (not_lt.mp before) fun h => same h.symm
        · exact least l (lookup_some_iff.mp there)

theorem sorted_map_sorted (members : List (String × α)) :
    ((sortedMap members).map Prod.fst).Pairwise (· < ·) := by
  induction members using List.reverseRecOn with
  | nil => exact List.Pairwise.nil
  | append_singleton members m ih =>
    rw [sortedMap, List.foldl_concat]
    exact insert_sorted ih

def collected (members : List (String × α)) (names : List String) : List (String × α) :=
  names.foldl (fun fields k =>
    (lookup k members).elim fields fun v => CachedResponse.insertField k v fields) []

variable (members : List (String × α))

theorem collected_concat (names : List String) (k : String) :
    collected members (names ++ [k]) =
      match lookup k members with
      | some v => CachedResponse.insertField k v (collected members names)
      | none => collected members names := by
  rw [collected, List.foldl_concat]
  cases lookup k members <;> rfl

theorem collected_sorted (names : List String) :
    ((collected members names).map Prod.fst).Pairwise (· < ·) := by
  induction names using List.reverseRecOn with
  | nil => exact List.Pairwise.nil
  | append_singleton names k ih =>
    rw [collected_concat]
    split
    · exact insert_sorted ih
    · exact ih

theorem lookup_collected (names : List String) (k : String) :
    lookup k (collected members names) = if k ∈ names then lookup k members else none := by
  induction names using List.reverseRecOn with
  | nil => rfl
  | append_singleton names l ih =>
    rw [collected_concat]
    by_cases same : l = k
    · rw [same, if_pos (List.mem_append_right names (List.mem_singleton_self k))]
      split
      · rename_i v found
        rw [lookup_insert, if_pos rfl, found]
      · rename_i missing
        rw [ih, missing, ite_self]
    · have others : k ∈ names ++ [l] ↔ k ∈ names := by
        rw [List.mem_append, List.mem_singleton, or_iff_left fun h => same h.symm]
      rw [if_congr others rfl rfl, ← ih]
      split
      · rw [lookup_insert, if_neg same]
      · rfl

end Sorted
section Server
variable (members : List (String × Json))

def served (names : List String) : List (String × Json) :=
  names.foldl (fun fields k =>
    (lookup k members).elim fields fun v => CachedResponse.insertField k v fields) []

theorem served_sorted (names : List String) :
    ((served members names).map Prod.fst).Pairwise (· < ·) := collected_sorted members names

theorem lookup_served (names : List String) (k : String) :
    lookup k (served members names) = if k ∈ names then lookup k members else none :=
  lookup_collected members names k

def member (k : String) : Json := (lookup k members).getD .null

theorem keyed_of_lookup {fields : List (String × Json)} (distinct : (fields.map Prod.fst).Nodup)
    {value : String → Json} (found : ∀ k v, lookup k fields = some v → value k = v) :
    fields = (fields.map Prod.fst).map fun k => (k, value k) := by
  induction fields with
  | nil => rfl
  | cons m fields ih =>
    obtain ⟨fresh, others⟩ := List.nodup_cons.mp distinct
    have first : value m.1 = m.2 := found m.1 m.2 (by rw [lookup_cons, if_pos rfl])
    have later : ∀ k v, lookup k fields = some v → value k = v := by
      intro k v there
      refine found k v ?_
      rw [lookup_cons, if_neg, there]
      rintro rfl
      exact fresh (lookup_some_iff.mp (by rw [there]; rfl))
    rw [List.map_cons, List.map_cons, first, ← ih others later]

theorem mem_present {names : List String} {k : String} :
    k ∈ present members names ↔ k ∈ names ∧ (lookup k members).isSome := by
  rw [present, List.mem_filter]

/-- The server's keys are the present names in byte order, with the members' values. -/
theorem served_spec (names : List String) :
    ∃ ks : List String, ks.Pairwise (· < ·) ∧ (∀ k, k ∈ ks ↔ k ∈ present members names) ∧
      served members names = ks.map fun k => (k, member members k) := by
  have sorted := served_sorted members names
  refine ⟨(served members names).map Prod.fst, sorted, fun k => ?_, keyed_of_lookup sorted.nodup ?_⟩
  · rw [← lookup_some_iff, lookup_served, mem_present]
    split
    · rename_i mem
      rw [and_iff_right mem]
    · rename_i missing
      simp [missing]
  · intro k v found
    rw [lookup_served] at found
    split at found
    · rw [member, found]
      rfl
    · cases found

end Server
section Worker
variable (members : List (String × Json))

theorem arrivals_concat (ks : List String) (k : String) :
    arrivals (ks ++ [k]) = if k ∈ arrivals ks then arrivals ks else arrivals ks ++ [k] := by
  rw [arrivals, List.foldl_concat]
  rfl

theorem mem_arrivals {ks : List String} {k : String} : k ∈ arrivals ks ↔ k ∈ ks := by
  induction ks using List.reverseRecOn with
  | nil => exact Iff.rfl
  | append_singleton ks l ih =>
    rw [arrivals_concat, List.mem_append, ← ih, List.mem_singleton]
    split
    · rename_i old
      exact ⟨Or.inl, fun either => either.elim id fun same => same ▸ old⟩
    · rw [List.mem_append, List.mem_singleton]

def keyed (ks : List String) : List (String × Json) := ks.map fun k => (k, member members k)

theorem keyed_keys (ks : List String) : (keyed members ks).map Prod.fst = ks := map_keys _ ks

theorem define_keyed {ks : List String} {k : String} :
    define k (member members k) (keyed members ks) =
      keyed members (if k ∈ ks then ks else ks ++ [k]) := by
  induction ks with
  | nil => rfl
  | cons l ks ih =>
    rw [keyed, List.map_cons]
    unfold define
    by_cases same : l = k
    · rw [if_pos same, if_pos (List.mem_cons.mpr (Or.inl same.symm)), ← same]
      rfl
    · have others : k ∈ l :: ks ↔ k ∈ ks := by
        rw [List.mem_cons, or_iff_right fun h => same h.symm]
      rw [if_neg same, ← keyed, ih, if_congr others rfl rfl]
      split <;> rfl

def picked (names : List String) : JsObject :=
  names.foldl (fun newObj k => (lookup k members).elim newObj (newObj.assign k)) JsObject.empty

theorem picked_concat (names : List String) (k : String) :
    picked members (names ++ [k]) =
      match lookup k members with
      | some v => (picked members names).assign k v
      | none => picked members names := by
  rw [picked, List.foldl_concat]
  cases lookup k members <;> rfl

theorem present_concat (names : List String) (k : String) :
    present members (names ++ [k]) =
      if (lookup k members).isSome then present members names ++ [k]
      else present members names := by
  rw [present, List.filter_append, List.filter_singleton]
  cases (lookup k members).isSome
  · exact List.append_nil _
  · rfl

theorem assign_own {newObj : JsObject} {ks : List String} {k : String} {v : Json}
    (found : lookup k members = some v) (own : newObj.own = keyed members (arrivals ks))
    (direct : k = "__proto__" → k ∈ ks ∨ newObj.proto.reachesSetter = false) :
    (newObj.assign k v).own = keyed members (arrivals (ks ++ [k])) ∧
      (newObj.assign k v).proto = newObj.proto := by
  have value : v = member members k := by
    rw [member, found]
    rfl
  have plain : ¬ (k = "__proto__" ∧ k ∉ newObj.own.map Prod.fst ∧ newObj.proto.reachesSetter) := by
    rintro ⟨named, fresh, setter⟩
    rcases direct named with old | past
    · rw [own, keyed_keys, mem_arrivals] at fresh
      exact fresh old
    · rw [past] at setter
      cases setter
  rw [JsObject.assign, if_neg plain, arrivals_concat, ← define_keyed, ← own, value]
  exact ⟨rfl, rfl⟩

theorem assign_setter {newObj : JsObject} {v : Json}
    (fresh : "__proto__" ∉ newObj.own.map Prod.fst) (setter : newObj.proto.reachesSetter = true) :
    newObj.assign "__proto__" v = newObj.setProto v := by
  rw [JsObject.assign, if_pos ⟨rfl, fresh, setter⟩]

theorem set_proto_own (newObj : JsObject) (v : Json) : (newObj.setProto v).own = newObj.own := by
  cases v <;> rfl

theorem set_proto_reaches {newObj : JsObject} {v : Json}
    (setter : newObj.proto.reachesSetter = true) (found : lookup "__proto__" members = some v) :
    (newObj.setProto v).proto.reachesSetter = false ↔ Sticky members := by
  unfold Sticky
  rw [found]
  cases v with
  | null => simp [JsObject.setProto, Proto.reachesSetter]
  | obj ms => simp [JsObject.setProto, Proto.reachesSetter]
  | arr items => simp [JsObject.setProto, Proto.reachesSetter]
  | bool b => simp [JsObject.setProto, setter]
  | str s => simp [JsObject.setProto, setter]

theorem picked_plain (plain : ¬ Sticky members) (names : List String) :
    (picked members names).own =
        keyed members (arrivals ((present members names).filter fun k => k ≠ "__proto__")) ∧
      (picked members names).proto.reachesSetter = true := by
  induction names using List.reverseRecOn with
  | nil => exact ⟨rfl, rfl⟩
  | append_singleton names k ih =>
    obtain ⟨own, setter⟩ := ih
    rw [picked_concat, present_concat]
    cases found : lookup k members with
    | none => exact ⟨own, setter⟩
    | some v =>
      dsimp only
      rw [Option.isSome_some, if_pos rfl, List.filter_append]
      by_cases named : k = "__proto__"
      · subst named
        have fresh : "__proto__" ∉ (picked members names).own.map Prod.fst := by
          rw [own, keyed_keys, mem_arrivals]
          simp
        have none_added : ["__proto__"].filter (fun k => k ≠ "__proto__") = [] := by simp
        rw [assign_setter fresh setter, set_proto_own, none_added, List.append_nil]
        refine ⟨own, ?_⟩
        by_contra past
        exact plain ((set_proto_reaches members setter found).mp (Bool.eq_false_iff.mpr past))
      · have added : [k].filter (fun k => k ≠ "__proto__") = [k] := by simp [named]
        obtain ⟨keys, proto⟩ := assign_own members found own fun h => absurd h named
        rw [added, proto]
        exact ⟨keys, setter⟩

/-- The first assignment to `__proto__` takes the setter away. -/
theorem picked_sticky (sticky : Sticky members) (names : List String) :
    (picked members names).own =
        keyed members (arrivals ((present members names).erase "__proto__")) ∧
      ((picked members names).proto.reachesSetter = false ↔
        "__proto__" ∈ present members names) := by
  induction names using List.reverseRecOn with
  | nil => exact ⟨rfl, by simp [picked, present, JsObject.empty, Proto.reachesSetter]⟩
  | append_singleton names k ih =>
    obtain ⟨own, reach⟩ := ih
    rw [picked_concat, present_concat]
    cases found : lookup k members with
    | none => exact ⟨own, reach⟩
    | some v =>
      dsimp only
      rw [Option.isSome_some, if_pos rfl]
      by_cases old : "__proto__" ∈ present members names
      · obtain ⟨keys, proto⟩ := assign_own members found own fun _ => Or.inr (reach.mpr old)
        rw [List.erase_append_left _ old, proto]
        exact ⟨keys, reach.trans (iff_of_true old (List.mem_append_left _ old))⟩
      · have setter : (picked members names).proto.reachesSetter = true :=
          Bool.eq_true_of_not_eq_false fun past => old (reach.mp past)
        have whole : (present members names).erase "__proto__" = present members names :=
          List.erase_of_not_mem old
        rw [List.erase_append_right _ old]
        by_cases named : k = "__proto__"
        · subst named
          have fresh : "__proto__" ∉ (picked members names).own.map Prod.fst := by
            rw [own, keyed_keys, mem_arrivals, whole]
            exact old
          rw [assign_setter fresh setter, set_proto_own, own, whole, List.erase_cons_head,
            List.append_nil]
          exact ⟨rfl, iff_of_true ((set_proto_reaches members setter found).mpr sticky)
            (List.mem_append_right _ (List.mem_singleton_self _))⟩
        · obtain ⟨keys, proto⟩ := assign_own members found own fun h => absurd h named
          have added : [k].erase "__proto__" = [k] := by
            rw [List.erase_of_not_mem]
            simpa using fun h => named h.symm
          rw [added, ← whole, proto]
          refine ⟨keys, reach.trans ?_⟩
          rw [whole, List.mem_append, List.mem_singleton, or_iff_left fun h => named h.symm]

end Worker
section Bodies
variable {members : List (String × Json)}

theorem own_order_perm (ks : List String) : (ownOrder ks).Perm ks := by
  have sorted := List.perm_insertionSort
    (fun k l => (arrayIndex k).getD 0 ≤ (arrayIndex l).getD 0)
    (ks.filter fun k => (arrayIndex k).isSome)
  have split := List.filter_append_perm (fun k => (arrayIndex k).isSome) ks
  simp only [Option.not_isSome] at split
  exact (sorted.append_right _).trans split

theorem enumerate_keyed {α : Type} (value : String → α) (ks : List String) :
    enumerate (ks.map fun k => (k, value k)) = (ownOrder ks).map fun k => (k, value k) := by
  have each : ∀ k ∈ ownOrder ks,
      ((lookup k (ks.map fun k => (k, value k))).map fun v => (k, v)) = some (k, value k) := by
    intro k mem
    rw [lookup_map ((own_order_perm ks).mem_iff.mp mem)]
    rfl
  rw [enumerate, map_keys, List.filterMap_congr each]
  exact congrFun (List.filterMap_eq_map (f := fun k => (k, value k))) (ownOrder ks)

theorem member_alike (alike : ∀ m ∈ members, serdePrint m.2 = stringifyValue m.2) (k : String) :
    serdePrint (member members k) = stringifyValue (member members k) := by
  unfold member lookup
  cases found : members.find? fun m => m.1 = k with
  | none => rfl
  | some m => exact alike m (List.mem_of_find?_eq_some found)

theorem mem_own_order {ks : List String} {k : String} :
    k ∈ ownOrder (arrivals ks) ↔ k ∈ ks := (own_order_perm _).mem_iff.trans mem_arrivals

theorem proto_twice (names : List String) :
    "__proto__" ∈ names.erase "__proto__" ↔ 2 ≤ names.count "__proto__" := by
  rw [← List.count_pos_iff, List.count_erase_self]
  omega

theorem filter_absent {names : List String} (absent : "__proto__" ∉ names) :
    (names.filter fun k => k ≠ "__proto__") = names.erase "__proto__" := by
  rw [List.erase_of_not_mem absent, List.filter_eq_self]
  exact fun k mem => decide_eq_true fun h => absent (h ▸ mem)

section Keys
variable {names ks : List String} (sorted : ks.Pairwise (· < ·))
  (mem : ∀ k, k ∈ ks ↔ k ∈ present members names)
include sorted mem

theorem sticky_keys (sticky : Sticky members) :
    ks = ownOrder (arrivals ((present members names).erase "__proto__")) ↔
      Agrees members names := by
  constructor
  · intro same
    refine ⟨fun there => ⟨sticky, ?_⟩, same ▸ sorted⟩
    rw [← proto_twice, ← mem_own_order, ← same, mem]
    exact there
  · rintro ⟨twice, increasing⟩
    refine sorted.eq_of_mem_iff increasing fun k => ?_
    rw [mem, mem_own_order]
    by_cases named : k = "__proto__"
    · subst named
      exact ⟨fun there => (proto_twice _).mpr (twice there).2, List.mem_of_mem_erase⟩
    · exact (List.mem_erase_of_ne named).symm

theorem plain_keys (plain : ¬ Sticky members) :
    ks = ownOrder (arrivals ((present members names).filter fun k => k ≠ "__proto__")) ↔
      Agrees members names := by
  by_cases there : "__proto__" ∈ present members names
  · constructor
    · intro same
      have kept := mem_own_order.mp (same ▸ (mem _).mpr there)
      simp at kept
    · exact fun agrees => absurd (agrees.1 there).1 plain
  · rw [filter_absent there]
    constructor
    · exact fun same => ⟨fun inside => absurd inside there, same ▸ sorted⟩
    · rintro ⟨_, increasing⟩
      refine sorted.eq_of_mem_iff increasing fun k => ?_
      rw [mem, mem_own_order, List.erase_of_not_mem there]

end Keys

theorem picked_keys (members : List (String × Json)) (names : List String) :
    ∃ js, (picked members names).own = keyed members js ∧
      ∀ ks : List String, ks.Pairwise (· < ·) → (∀ k, k ∈ ks ↔ k ∈ present members names) →
        (ks = ownOrder js ↔ Agrees members names) := by
  by_cases sticky : Sticky members
  · exact ⟨_, (picked_sticky members sticky names).1, fun ks sorted mem =>
      sticky_keys sorted mem sticky⟩
  · exact ⟨_, (picked_plain members sticky names).1, fun ks sorted mem =>
      plain_keys sorted mem sticky⟩

theorem text_bytes_injective {t t' : Text} (same : textBytes t = textBytes t') : t = t' := by
  have read := congrArg Cbor.fromUtf8 same
  rw [textBytes, textBytes, Cbor.from_utf8, Cbor.from_utf8] at read
  exact String.ofList_injective (Option.some.inj read)

theorem printed_alike_iff (alike : ∀ m ∈ members, serdePrint m.2 = stringifyValue m.2)
    (names : List String) :
    textBytes (printObject ((served members names).map fun m => (m.1, serdePrint m.2))) =
        textBytes (printObject (enumerate
          ((picked members names).own.map fun m => (m.1, stringifyValue m.2)))) ↔
      Agrees members names := by
  obtain ⟨ks, sorted, mem, fields⟩ := served_spec members names
  obtain ⟨js, own, agrees⟩ := picked_keys members names
  have printed : (served members names).map (fun m => (m.1, serdePrint m.2)) =
      ks.map fun k => (k, serdePrint (member members k)) := by
    rw [fields, List.map_map]
    rfl
  have stringified : enumerate
      ((picked members names).own.map fun m => (m.1, stringifyValue m.2)) =
        (ownOrder js).map fun k => (k, serdePrint (member members k)) := by
    have values : (keyed members js).map (fun m => (m.1, stringifyValue m.2)) =
        js.map fun k => (k, serdePrint (member members k)) := by
      rw [keyed, List.map_map]
      exact List.map_congr_left fun k _ => Prod.ext rfl (member_alike alike k).symm
    rw [own, values, enumerate_keyed]
  rw [printed, stringified, ← agrees ks sorted mem]
  constructor
  · exact fun same => print_object_keys _ (text_bytes_injective same)
  · rintro rfl
    rfl

end Bodies
section Proxies
variable {members : List (String × Json)}

theorem pick_fold (libs : WorkerResponse.Libraries) (obj : libs.Value)
    (get : String → Option libs.Value) (own : ∀ k, libs.ownProperty obj k = .ok (get k))
    (names : List String) :
    WorkerResponse.pick libs obj names =
      .ok (names.foldl (fun newObj k => (get k).elim newObj (libs.assign newObj k))
        libs.emptyObject) := by
  unfold WorkerResponse.pick
  generalize libs.emptyObject = newObj
  induction names generalizing newObj with
  | nil => rfl
  | cons k names ih =>
    rw [List.foldlM_cons, List.foldl_cons, own]
    cases get k with
    | none => exact ih newObj
    | some v => exact ih (libs.assign newObj k v)

theorem pick_spec (base : WorkerResponse.Libraries) (parse : Bytes → Except String Json)
    (distinct : (members.map Prod.fst).Nodup) (names : List String) :
    WorkerResponse.pick (jsLibraries base parse) (.obj members) names =
      .ok (picked members names) :=
  pick_fold (jsLibraries base parse) (.obj members) (fun k => lookup k members)
    (fun k => congrArg Except.ok (lookup_properties distinct k)) names

theorem mask_fold (libs : CachedResponse.Libraries) {obj : libs.Json} {body : Bytes}
    (parsed : libs.parseJson body = .ok obj) (get : String → Option libs.Json)
    (field : ∀ k, libs.jsonField obj k = get k) (names : List String) :
    CachedResponse.maskJson libs names body =
      libs.printJson (names.foldl (fun fields k =>
        (get k).elim fields fun v => CachedResponse.insertField k v fields) []) := by
  rw [CachedResponse.maskJson, parsed]
  refine congrArg (fun step => libs.printJson (names.foldl step [])) ?_
  funext fields k
  rw [field]
  cases get k <;> rfl

theorem mask_json_spec (base : CachedResponse.Libraries) {parse : Bytes → Except String Json}
    {body : Bytes} (parsed : parse body = .ok (.obj members))
    (distinct : (members.map Prod.fst).Nodup) (names : List String) :
    CachedResponse.maskJson (serdeLibraries base parse) names body =
      .ok (textBytes (printObject ((served members names).map fun m => (m.1, serdePrint m.2)))) :=
  mask_fold (serdeLibraries base parse) parsed (fun k => lookup k members)
    (fun k => lookup_sorted_map distinct k) names

theorem with_body_json {libs : CachedResponse.Libraries} {body masked : Bytes} {filtering : String}
    {rd : CachedResponse.ResponseData}
    (printed : CachedResponse.maskJson libs (CachedResponse.splitFiltering filtering) body =
      .ok masked)
    (filled : CachedResponse.splitFiltering filtering ≠ []) (success : rd.status < 300)
    (json : CachedResponse.contains rd.mime "application/json" = true) :
    rd.withBody libs body filtering = .ok { rd with body := masked } := by
  have masking : ¬ (rd.status ≥ 300 ∨ (CachedResponse.splitFiltering filtering).isEmpty) := by
    rintro (failed | empty)
    · omega
    · exact filled (List.isEmpty_iff.mp empty)
  unfold CachedResponse.ResponseData.withBody
  dsimp only
  rw [if_neg masking, if_pos json, printed]
  rfl

theorem set_body_json (libs : WorkerResponse.Libraries) {obj : libs.Value} {newObj : libs.Object}
    {body : Bytes} {filtering : String} {wd : WorkerResponse.ResponseData}
    (parsed : libs.parseJson body = .ok obj)
    (picked : WorkerResponse.pick libs obj (WorkerResponse.listed filtering) = .ok newObj)
    (filled : WorkerResponse.listed filtering ≠ []) (success : wd.status < 300)
    (json : WorkerResponse.includes wd.mime "application/json" = true) :
    wd.setBody libs body filtering = .ok { wd with body := some (libs.stringify newObj) } := by
  have masking : ¬ (WorkerResponse.listed filtering).isEmpty ∧ wd.status < 300 ∧
      WorkerResponse.includes wd.mime "application/json" = true :=
    ⟨fun empty => filled (List.isEmpty_iff.mp empty), success, json⟩
  unfold WorkerResponse.ResponseData.setBody
  dsimp only
  rw [if_pos masking, parsed]
  change (WorkerResponse.pick libs obj _ >>= _) = _
  rw [picked]
  rfl

theorem stringify_spec (base : WorkerResponse.Libraries) (parse : Bytes → Except String Json)
    (newObj : JsObject) :
    (jsLibraries base parse).stringify newObj = textBytes (printObject (enumerate
      (newObj.own.map fun m => (m.1, stringifyValue m.2)))) := rfl

section Upstream
variable {base : CachedResponse.Libraries} {base' : WorkerResponse.Libraries}
  {parse parse' : Bytes → Except String Json} {body : Bytes} {filtering : String}
  {rd : CachedResponse.ResponseData} {wd : WorkerResponse.ResponseData}
  (parsed : parse body = .ok (.obj members)) (parsed' : parse' body = .ok (.obj members))
  (distinct : (members.map Prod.fst).Nodup) (header : IsHeader filtering)
  (success : rd.status < 300)
  (json : CachedResponse.contains rd.mime "application/json" = true)
  (status : wd.status = rd.status) (mime : wd.mime = rd.mime)
include parsed parsed' distinct header success json status mime

theorem masked_bytes_iff (filled : CachedResponse.splitFiltering filtering ≠ []) :
    (∃ r w, rd.withBody (serdeLibraries base parse) body filtering = .ok r ∧
        wd.setBody (jsLibraries base' parse') body filtering = .ok w ∧ w.body = some r.body) ↔
      textBytes (printObject ((served members (CachedResponse.splitFiltering filtering)).map
          fun m => (m.1, serdePrint m.2))) =
        textBytes (printObject (enumerate
          ((picked members (CachedResponse.splitFiltering filtering)).own.map
            fun m => (m.1, stringifyValue m.2)))) := by
  have same := listed_same header
  have filled' : WorkerResponse.listed filtering ≠ [] := by rwa [same]
  have success' : wd.status < 300 := by rwa [status]
  have json' : WorkerResponse.includes wd.mime "application/json" = true := by
    rw [mime]
    exact json
  have served := with_body_json (mask_json_spec base parsed distinct _) filled success json
  have picked := set_body_json (jsLibraries base' parse') parsed'
    (pick_spec base' parse' distinct _) filled' success' json'
  rw [same, stringify_spec] at picked
  rw [served, picked]
  constructor
  · rintro ⟨r, w, first, second, bytes⟩
    cases first
    cases second
    dsimp only at bytes
    exact (Option.some.inj bytes).symm
  · intro bytes
    refine ⟨_, _, rfl, rfl, ?_⟩
    dsimp only
    rw [bytes]

/-- A JSON object is masked to the same bytes on both proxies exactly if the listed
    names agree. -/
theorem masked_alike_iff (fresh : rd.body = [])
    (alike : ∀ m ∈ members, serdePrint m.2 = stringifyValue m.2) :
    (∃ r w, rd.withBody (serdeLibraries base parse) body filtering = .ok r ∧
        wd.setBody (jsLibraries base' parse') body filtering = .ok w ∧ w.body = some r.body) ↔
      Agrees members (CachedResponse.splitFiltering filtering) := by
  by_cases blank : CachedResponse.splitFiltering filtering = []
  · have kept : rd.withBody (serdeLibraries base parse) body filtering =
        .ok { rd with body := rd.body ++ body } := by
      unfold CachedResponse.ResponseData.withBody
      rw [blank]
      exact if_pos (Or.inr rfl)
    have kept' : wd.setBody (jsLibraries base' parse') body filtering =
        .ok { wd with body := some body } := by
      unfold WorkerResponse.ResponseData.setBody
      rw [listed_same header, blank]
      rfl
    rw [kept, kept', blank]
    refine iff_of_true ⟨_, _, rfl, rfl, ?_⟩ ⟨fun there => absurd there List.not_mem_nil, ?_⟩
    · rw [fresh, List.nil_append]
    · exact List.Pairwise.nil
  · exact (masked_bytes_iff parsed parsed' distinct header success json status mime blank).trans
      (printed_alike_iff alike _)

end Upstream
end Proxies

section Sample

def sampleMembers : List (String × Json) := [("a", .str "x"), ("b", .str "y")]

def sampleBody : Bytes := textBytes (serdePrint (.obj sampleMembers))

def sampleParse (body : Bytes) : Except String Json :=
  if body = sampleBody then .ok (.obj sampleMembers) else .error "expected value"

theorem sample_parsed : sampleParse sampleBody = .ok (.obj sampleMembers) := if_pos rfl

theorem sample_alike : ∀ m ∈ sampleMembers, serdePrint m.2 = stringifyValue m.2 := by
  intro m mem
  rcases List.mem_cons.mp mem with rfl | later
  · rfl
  · rw [List.mem_singleton.mp later]
    rfl

def SamplesAlike (filtering : String) : Prop :=
  ∃ r w, (⟨200, [], [], "application/json"⟩ : CachedResponse.ResponseData).withBody
      (serdeLibraries StoredForm.libraries sampleParse) sampleBody filtering = .ok r ∧
    (⟨200, [], none, "application/json"⟩ : WorkerResponse.ResponseData).setBody
      (jsLibraries WorkerResponse.sampleLibraries sampleParse) sampleBody filtering = .ok w ∧
    w.body = some r.body

theorem sample_masked_alike :
    SamplesAlike " a, b,a" ↔ Agrees sampleMembers (CachedResponse.splitFiltering " a, b,a") :=
  masked_alike_iff sample_parsed sample_parsed (by decide) (by decide) (by decide) (by decide)
    rfl rfl rfl sample_alike

/-- Listed as b and a, they stay in that order on the worker alone. -/
theorem listed_order_kept :
    sampleParse sampleBody = .ok (.obj sampleMembers) ∧ (sampleMembers.map Prod.fst).Nodup ∧
      (∀ m ∈ sampleMembers, serdePrint m.2 = stringifyValue m.2) ∧ IsHeader "b,a" ∧
      ¬ SamplesAlike "b,a" := by
  refine ⟨sample_parsed, by decide, sample_alike, by decide, ?_⟩
  intro alike
  have bytes := (masked_bytes_iff sample_parsed sample_parsed (by decide) (by decide) (by decide)
    (by decide) rfl rfl (by decide)).mp alike
  have texts := text_bytes_injective bytes
  revert texts
  decide

end Sample
end Masking
