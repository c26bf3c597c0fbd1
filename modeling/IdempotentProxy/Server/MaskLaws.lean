import Mathlib.Data.List.Sublists
import IdempotentProxy.Foundations.KeyedDocuments
import IdempotentProxy.Foundations.Prefixes
import IdempotentProxy.Worker.Masking

/-!
What `with_body` leaves of a response, in JSON and in CBOR: the fields with a listed name,
whether the names are looked up in the object or the entries are retained.
-/
namespace MaskLaws
open CachedResponse JsonText KeyedDocuments Masking

abbrev Bytes := CachedResponse.Bytes
abbrev DataFormat := Format Bytes String String

section Formats
variable {libs : Libraries}

/-- The objects among the JSON values, with their members as the sorted map has them. -/
structure Objects (libs : Libraries) where
  members : libs.Json → Option (List (String × libs.Json))
  sorted : ∀ (obj : libs.Json) (ms : List (String × libs.Json)), members obj = some ms →
    (ms.map Prod.fst).Pairwise (· < ·)
  field : ∀ (obj : libs.Json) (k : String), libs.jsonField obj k = (members obj).bind (lookup k)

def jsonFormat (objects : Objects libs) : DataFormat where
  Doc := libs.Json
  Entry := String × libs.Json
  parse := libs.parseJson
  entries := objects.members
  name := fun m => some m.1
  print := libs.printJson

def cborFormat (libs : Libraries) : DataFormat where
  Doc := libs.Cbor
  Entry := libs.Cbor × libs.Cbor
  parse := libs.parseCbor
  entries := libs.cborMap
  name := fun e => libs.cborText e.1
  print := libs.printCborMap

def formatOf (objects : Objects libs) (mime : String) : Option DataFormat :=
  if contains mime "application/json" then some (jsonFormat objects)
  else if contains mime "application/cbor" then some (cborFormat libs)
  else none

structure Takes (objects : Objects libs) (fmt : DataFormat) (rd : ResponseData) : Prop where
  success : rd.status < 300
  format : formatOf objects rd.mime = some fmt

/-- A body that is parsed, to a document that printing does not change. -/
structure Parsed (fmt : DataFormat) (body : Bytes) (doc : fmt.Doc) : Prop where
  parsed : fmt.parse body = .ok doc
  inverts : fmt.Inverts (fmt.content doc)

def CommonNames (first second both : String) : Prop :=
  ∀ k, k ∈ splitFiltering both ↔ k ∈ splitFiltering first ∧ k ∈ splitFiltering second

def textFields (libs : Libraries) (es : List (libs.Cbor × libs.Cbor)) :
    List (String × libs.Cbor) :=
  es.filterMap fun e => (libs.cborText e.1).map fun k => (k, e.2)

/-- The same text-keyed object in both formats, where `same` relates their values. -/
structure SameObject (same : libs.Json → libs.Cbor → Prop) (ms : List (String × libs.Json))
    (es : List (libs.Cbor × libs.Cbor)) : Prop where
  texts : ∀ e ∈ es, (libs.cborText e.1).isSome
  distinct : ((textFields libs es).map Prod.fst).Nodup
  fields : ∀ k : String, Option.Rel same (lookup k ms) (lookup k (textFields libs es))

end Formats
section Fields
variable {α : Type}

theorem mem_iff_lookup {ms : List (String × α)} (distinct : (ms.map Prod.fst).Nodup)
    {m : String × α} : m ∈ ms ↔ lookup m.1 ms = some m.2 := by
  induction ms with
  | nil => simp [lookup]
  | cons first ms ih =>
    obtain ⟨fresh, others⟩ := List.nodup_cons.mp distinct
    rw [List.mem_cons, lookup_cons, ih others]
    by_cases same : first.1 = m.1
    · have later : lookup m.1 ms = none := by
        rw [← Option.not_isSome_iff_eq_none, lookup_some_iff, ← same]
        exact fresh
      rw [if_pos same, later, Option.some.injEq]
      constructor
      · rintro (rfl | none)
        · rfl
        · cases none
      · exact fun value => Or.inl (Prod.ext same.symm value.symm)
    · rw [if_neg same, or_iff_right]
      rintro rfl
      exact same rfl

theorem sorted_ext {ms ls : List (String × α)} (sorted : (ms.map Prod.fst).Pairwise (· < ·))
    (sorted' : (ls.map Prod.fst).Pairwise (· < ·)) (same : ∀ k, lookup k ms = lookup k ls) :
    ms = ls := by
  have members : ∀ m, m ∈ ms ↔ m ∈ ls := by
    intro m
    rw [mem_iff_lookup sorted.nodup, mem_iff_lookup sorted'.nodup, same]
  have byKey : ms.Pairwise fun m l => m.1 < l.1 := List.pairwise_map.mp sorted
  have byKey' : ls.Pairwise fun m l => m.1 < l.1 := List.pairwise_map.mp sorted'
  have : Std.Irrefl fun m l : String × α => m.1 < l.1 := ⟨fun m => lt_irrefl m.1⟩
  exact byKey.eq_of_mem_iff byKey' fun m => members m

theorem lookup_filter (p : String → Bool) (k : String) (ms : List (String × α)) :
    lookup k (ms.filter fun m => p m.1) = if p k then lookup k ms else none := by
  induction ms with
  | nil => exact (ite_self none).symm
  | cons m ms ih =>
    rw [lookup_cons, List.filter_cons]
    by_cases same : m.1 = k
    · subst same
      split
      · rw [lookup_cons, if_pos rfl, if_pos rfl]
      · rename_i dropped
        rw [ih, if_neg dropped]
    · rw [if_neg same, ← ih]
      split
      · rw [lookup_cons, if_neg same]
      · rfl

theorem collected_filter {ms : List (String × α)} (sorted : (ms.map Prod.fst).Pairwise (· < ·))
    (names : List String) : collected ms names = ms.filter fun m => names.contains m.1 := by
  apply sorted_ext (collected_sorted ms names)
  · exact sorted.sublist (List.filter_sublist.map Prod.fst)
  · intro k
    rw [lookup_collected, lookup_filter (names.contains ·) k ms]
    simp only [List.contains_iff_mem]

end Fields
section Masks
variable {libs : Libraries} (objects : Objects libs)

theorem content_sorted (obj : libs.Json) :
    (((jsonFormat objects).content obj).map Prod.fst).Pairwise (· < ·) := by
  unfold Format.content jsonFormat
  dsimp only
  cases object : objects.members obj with
  | none => exact List.Pairwise.nil
  | some ms => exact objects.sorted obj ms object

theorem field_content (obj : libs.Json) (k : String) :
    libs.jsonField obj k = lookup k ((jsonFormat objects).content obj) := by
  rw [objects.field]
  unfold Format.content jsonFormat
  dsimp only
  cases objects.members obj <;> rfl

theorem mask_json (names : List String) (body : Bytes) :
    maskJson libs names body = (jsonFormat objects).mask names body := by
  cases parsed : libs.parseJson body with
  | error e =>
    have failed : (jsonFormat objects).parse body = .error e := parsed
    rw [Format.mask_failed failed, maskJson, parsed]
    rfl
  | ok obj =>
    have parsed' : (jsonFormat objects).parse body = .ok obj := parsed
    rw [Format.mask_parsed parsed', mask_fold libs parsed _ (field_content objects obj) names]
    exact congrArg libs.printJson (collected_filter (content_sorted objects obj) names)

theorem mask_cbor (names : List String) (body : Bytes) :
    maskCbor libs names body = (cborFormat libs).mask names body := by
  cases parsed : libs.parseCbor body with
  | error e =>
    have failed : (cborFormat libs).parse body = .error e := parsed
    rw [Format.mask_failed failed, maskCbor, parsed]
    rfl
  | ok value =>
    have parsed' : (cborFormat libs).parse body = .ok value := parsed
    rw [Format.mask_parsed parsed', maskCbor, parsed]
    apply congrArg libs.printCborMap
    apply List.filter_congr
    intro e _
    unfold Format.listed cborFormat
    dsimp only
    cases libs.cborText e.1 <;> rfl

theorem with_body_masked {fmt : DataFormat} {rd : ResponseData} (takes : Takes objects fmt rd)
    {filtering : String} (filled : splitFiltering filtering ≠ []) (body : Bytes) :
    rd.withBody libs body filtering =
      (fmt.mask (splitFiltering filtering) body).map fun out => { rd with body := out } := by
  have masking : ¬ (rd.status ≥ 300 ∨ (splitFiltering filtering).isEmpty) := by
    rintro (failed | empty)
    · have := takes.success
      omega
    · exact filled (List.isEmpty_iff.mp empty)
  have format := takes.format
  unfold formatOf at format
  unfold ResponseData.withBody
  dsimp only
  rw [if_neg masking]
  split at format
  · rename_i json
    cases format
    rw [if_pos json, mask_json objects]
    rfl
  · rename_i json
    split at format
    · rename_i cbor
      cases format
      rw [if_neg json, if_pos cbor, mask_cbor]
      rfl
    · cases format

end Masks
section Names

theorem listed_name {filtering k : String} (mem : k ∈ splitFiltering filtering) :
    ',' ∉ k.toList ∧ trim k.toList = k.toList ∧ k.toList ≠ [] := by
  obtain ⟨part, inside, named⟩ := List.mem_filterMap.mp mem
  dsimp only at named
  split at named
  · cases named
  · rename_i filled
    cases named
    rw [String.toList_ofList]
    refine ⟨fun comma => ?_, Prefixes.trimmed_again isWhitespace part, ?_⟩
    · have kept : ',' ∈ part.dropWhile isWhitespace :=
        (List.rdropWhile_prefix isWhitespace (part.dropWhile isWhitespace)).subset comma
      exact (part_chars inside ',' ((List.dropWhile_sublist _).subset kept)).2 rfl
    · exact fun empty => filled (List.isEmpty_iff.mpr empty)

theorem split_joined {names : List String}
    (each : ∀ k ∈ names, ',' ∉ k.toList ∧ trim k.toList = k.toList ∧ k.toList ≠ []) :
    splitFiltering (String.ofList (List.intercalate [','] (names.map String.toList))) = names := by
  unfold splitFiltering
  rw [String.toList_ofList]
  cases names with
  | nil => rfl
  | cons first rest =>
    rw [List.splitOn_intercalate ',' (fun l mem => ?_) (by simp)]
    · rw [List.filterMap_map]
      have same : ∀ k ∈ first :: rest,
          ((fun s => if (trim s).isEmpty then none else some (String.ofList (trim s))) ∘
            String.toList) k = some k := by
        intro k mem
        obtain ⟨_, trimmed, filled⟩ := each k mem
        have some : (trim k.toList).isEmpty = false := by
          rw [trimmed]
          exact List.isEmpty_eq_false_iff.mpr filled
        rw [Function.comp_apply, trimmed]
        rw [trimmed] at some
        rw [some, if_neg Bool.false_ne_true, String.ofList_toList]
      rw [List.filterMap_congr same]
      exact List.filterMap_some
    · obtain ⟨k, inside, rfl⟩ := List.mem_map.mp mem
      exact (each k inside).1

theorem common_listed (first second : String) : ∃ both, CommonNames first second both := by
  have each : ∀ k ∈ (splitFiltering first).filter fun k => (splitFiltering second).contains k,
      ',' ∉ k.toList ∧ trim k.toList = k.toList ∧ k.toList ≠ [] :=
    fun k mem => listed_name (List.mem_filter.mp mem).1
  refine ⟨String.ofList (List.intercalate [','] (List.map String.toList
    ((splitFiltering first).filter fun k => (splitFiltering second).contains k))), fun k => ?_⟩
  rw [split_joined each, List.mem_filter, List.contains_iff_mem]

end Names
section BothFormats
variable {libs : Libraries} {same : libs.Json → libs.Cbor → Prop}
  {ms : List (String × libs.Json)} {es : List (libs.Cbor × libs.Cbor)}

theorem text_fields_filter {p : libs.Cbor × libs.Cbor → Bool} {q : String → Bool}
    (keyed : ∀ e, p e = (libs.cborText e.1).elim false q) (es : List (libs.Cbor × libs.Cbor)) :
    textFields libs (es.filter p) = (textFields libs es).filter fun m => q m.1 := by
  unfold textFields
  rw [List.filter_filterMap, List.filterMap_filter]
  apply List.filterMap_congr
  intro e _
  rw [keyed]
  cases libs.cborText e.1 with
  | none => rfl
  | some k =>
    by_cases kept : q k = true <;> simp [Option.filter, kept]

theorem listed_keyed (names : List String) (e : libs.Cbor × libs.Cbor) :
    (cborFormat libs).listed names e = (libs.cborText e.1).elim false names.contains := by
  unfold Format.listed cborFormat
  dsimp only
  cases libs.cborText e.1 <;> rfl

theorem same_object_masked (object : SameObject same ms es) (names : List String) :
    SameObject same (ms.filter fun m => names.contains m.1)
      (es.filter ((cborFormat libs).listed names)) where
  texts := fun e mem => object.texts e (List.mem_filter.mp mem).1
  distinct := by
    rw [text_fields_filter (listed_keyed names)]
    exact object.distinct.sublist (List.filter_sublist.map Prod.fst)
  fields := by
    intro k
    rw [text_fields_filter (listed_keyed names), lookup_filter, lookup_filter]
    split
    · exact object.fields k
    · exact Option.Rel.none

end BothFormats
section Laws
variable {libs : Libraries} {objects : Objects libs} {fmt : DataFormat} {rd : ResponseData}
  {body : Bytes} {doc : fmt.Doc} {filtering : String}

theorem masked_body (takes : Takes objects fmt rd) (filled : splitFiltering filtering ≠ [])
    {out : Bytes} (masked : fmt.mask (splitFiltering filtering) body = .ok out) :
    rd.withBody libs body filtering = .ok { rd with body := out } := by
  rw [with_body_masked objects takes filled, masked]
  rfl

theorem common_filled {second both : String} (common : CommonNames filtering second both)
    (filled : splitFiltering both ≠ []) : splitFiltering second ≠ [] := by
  obtain ⟨k, mem⟩ := List.exists_mem_of_ne_nil _ filled
  exact List.ne_nil_of_mem ((common k).mp mem).2

theorem masked_twice (takes : Takes objects fmt rd) (input : Parsed fmt body doc) {out : Bytes}
    (masked : fmt.mask (splitFiltering filtering) body = .ok out) {second both : String}
    (common : CommonNames filtering second both) (filled : splitFiltering both ≠ []) :
    ∃ twice, rd.withBody libs out second = .ok { rd with body := twice } ∧
      rd.withBody libs body both = .ok { rd with body := twice } := by
  obtain ⟨twice, _, once, _⟩ :=
    Format.mask_kept input.parsed input.inverts (splitFiltering both)
  have again := Format.mask_masked input.parsed input.inverts masked common
  exact ⟨twice, masked_body takes (common_filled common filled) (again.trans once),
    masked_body takes filled once⟩

/-- Masking keeps the entries with a listed name, for good, and of two filters the entries
    that both list; of an object in both formats the same fields. -/
theorem listed_fields_kept (objects : Objects libs) (filled : splitFiltering filtering ≠ []) :
    (∀ {fmt : DataFormat} {body : Bytes} {doc : fmt.Doc}, Parsed fmt body doc →
      ∃ out masked, fmt.parse out = .ok masked ∧
        fmt.entries masked =
          some ((fmt.content doc).filter (fmt.listed (splitFiltering filtering))) ∧
        ∀ rd, Takes objects fmt rd →
          rd.withBody libs body filtering = .ok { rd with body := out } ∧
          rd.withBody libs out filtering = .ok { rd with body := out } ∧
          ∀ second, (∃ both, CommonNames filtering second both) ∧
            ∀ both, CommonNames filtering second both → splitFiltering both ≠ [] →
              ∃ twice, rd.withBody libs out second = .ok { rd with body := twice } ∧
                rd.withBody libs body both = .ok { rd with body := twice }) ∧
    ∀ {same : libs.Json → libs.Cbor → Prop} {text data : Bytes} {obj : libs.Json}
        {value : libs.Cbor}, Parsed (jsonFormat objects) text obj →
      Parsed (cborFormat libs) data value →
      SameObject same ((jsonFormat objects).content obj) ((cborFormat libs).content value) →
      ∀ jd cd, Takes objects (jsonFormat objects) jd → Takes objects (cborFormat libs) cd →
        ∃ out out' masked masked' ms es,
          jd.withBody libs text filtering = .ok { jd with body := out } ∧
          cd.withBody libs data filtering = .ok { cd with body := out' } ∧
          libs.parseJson out = .ok masked ∧ objects.members masked = some ms ∧
          libs.parseCbor out' = .ok masked' ∧ libs.cborMap masked' = some es ∧
          SameObject same ms es := by
  constructor
  · intro fmt body doc input
    obtain ⟨out, masked, printed, parsed, kept⟩ :=
      Format.mask_kept input.parsed input.inverts (splitFiltering filtering)
    refine ⟨out, masked, parsed, kept, fun rd takes => ⟨masked_body takes filled printed, ?_, ?_⟩⟩
    · exact masked_body takes filled (Format.mask_again input.parsed input.inverts printed)
    · exact fun second => ⟨common_listed filtering second, fun both common filled =>
        masked_twice takes input printed common filled⟩
  · intro same text data obj value json cbor object jd cd jtakes ctakes
    obtain ⟨out, masked, printed, parsed, kept⟩ :=
      Format.mask_kept json.parsed json.inverts (splitFiltering filtering)
    obtain ⟨out', masked', printed', parsed', kept'⟩ :=
      Format.mask_kept cbor.parsed cbor.inverts (splitFiltering filtering)
    exact ⟨out, out', masked, masked', _, _, masked_body jtakes filled printed,
      masked_body ctakes filled printed', parsed, kept, parsed', kept',
      same_object_masked object (splitFiltering filtering)⟩

end Laws
section Sample
open Cbor (text readText mapHead readKind readMany)

abbrev Value := String ⊕ List (String × String)

def entriesOf (es : List (String × String)) : List (Value × Value) :=
  es.map fun e => (.inl e.1, .inl e.2)

def toTexts (es : List (Value × Value)) : Option (List (String × String)) :=
  es.mapM fun e => do return (← e.1.getLeft?, ← e.2.getLeft?)

def writePair (e : String × String) : Bytes := text e.1 ++ text e.2

def writeTexts (es : List (String × String)) : Bytes := mapHead es.length ++ es.flatMap writePair

def readPair (input : Bytes) : Option ((String × String) × Bytes) := do
  let (k, input) ← readText input
  let (v, input) ← readText input
  return ((k, v), input)

def readTexts (input : Bytes) : Option (List (String × String)) := do
  let (n, input) ← readKind 5 input
  let (es, _) ← readMany readPair n input
  return es

def sampleEntries : List (String × String) := [("b", "y"), ("a", "x")]

def printed (ms : List (String × Json)) : Text :=
  printObject (ms.map fun m => (m.1, serdePrint m.2))

def readSample (body : Bytes) : Option (List (String × Json)) := do
  let s ← Cbor.fromUtf8 body
  sampleMembers.sublists.find? fun ms => printed ms = s.toList

def libraries : Libraries :=
  { serdeLibraries StoredForm.libraries fun body =>
      ((readSample body).map Json.obj).elim (.error "expected value") .ok with
    Cbor := Value
    parseCbor := fun body => (readTexts body).elim (.error "invalid type") fun es => .ok (.inr es)
    cborMap := fun value => value.getRight?.map entriesOf
    cborText := Sum.getLeft?
    printCborMap := fun es =>
      (toTexts es).elim (.error "invalid value") fun es => .ok (writeTexts es) }

def objects : Objects libraries where
  members := fun obj =>
    match obj with
    | .obj ms => some (sortedMap ms)
    | _ => none
  sorted := by
    intro obj ms object
    cases obj with
    | obj members =>
      cases object
      exact sorted_map_sorted members
    | _ => cases object
  field := by
    intro obj k
    cases obj <;> rfl

theorem to_texts (es : List (String × String)) : toTexts (entriesOf es) = some es := by
  induction es with
  | nil => rfl
  | cons e es ih =>
    unfold toTexts entriesOf at ih ⊢
    rw [List.map_cons, List.mapM_cons, ih]
    rfl

theorem read_texts {es : List (String × String)} (bound : es.length < 2 ^ 64)
    (short : ∀ e ∈ es, (Cbor.utf8 e.1).length < 2 ^ 64 ∧ (Cbor.utf8 e.2).length < 2 ^ 64) :
    readTexts (writeTexts es) = some es := by
  have each : ∀ e ∈ es, ∀ rest, readPair (writePair e ++ rest) = some (e, rest) := by
    intro e mem rest
    simp [readPair, writePair, List.append_assoc, Cbor.read_text (short e mem).1,
      Cbor.read_text (short e mem).2]
  have pairs : readMany readPair es.length (es.flatMap writePair) = some (es, []) := by
    simpa using Cbor.read_many each []
  simp [readTexts, writeTexts, mapHead, Cbor.read_kind (by decide : 5 < 8) bound, pairs]

theorem read_sample {ms : List (String × Json)} (sub : ms.Sublist sampleMembers) :
    readSample (textBytes (printed ms)) = some ms ∧ sortedMap ms = ms := by
  have mem : ms ∈ sampleMembers.sublists := List.mem_sublists.mpr sub
  simp [sampleMembers, List.sublists] at mem
  unfold readSample textBytes
  rw [Cbor.from_utf8, Option.bind_eq_bind, Option.bind_some, String.toList_ofList]
  rcases mem with rfl | rfl | rfl | rfl
  all_goals exact ⟨rfl, rfl⟩

theorem sample_json : Parsed (jsonFormat objects) (textBytes (printed sampleMembers))
    (.obj sampleMembers) := by
  have reads : ∀ {ms : List (String × Json)}, ms.Sublist sampleMembers →
      libraries.parseJson (textBytes (printed ms)) = .ok (.obj ms) := by
    intro ms sub
    change ((readSample (textBytes (printed ms))).map Json.obj).elim _ _ = _
    rw [(read_sample sub).1]
    rfl
  refine ⟨reads (List.Sublist.refl _), fun kept sub => ?_⟩
  exact ⟨_, _, rfl, reads sub, congrArg some (read_sample sub).2⟩

theorem sample_cbor : Parsed (cborFormat libraries) (writeTexts sampleEntries)
    (.inr sampleEntries) := by
  have reads : ∀ {es : List (String × String)}, es.Sublist sampleEntries →
      libraries.parseCbor (writeTexts es) = .ok (.inr es) := by
    intro es sub
    have bound : es.length < 2 ^ 64 := lt_of_le_of_lt sub.length_le (by decide)
    have short : ∀ e ∈ sampleEntries,
        (Cbor.utf8 e.1).length < 2 ^ 64 ∧ (Cbor.utf8 e.2).length < 2 ^ 64 := by decide
    change (readTexts (writeTexts es)).elim _ _ = _
    rw [read_texts bound fun e mem => short e (sub.subset mem)]
    rfl
  refine ⟨reads (List.Sublist.refl _), fun kept sub => ?_⟩
  obtain ⟨es, left, same⟩ := List.sublist_map_iff.mp sub
  subst same
  exact ⟨_, _, congrArg (Option.elim · _ _) (to_texts es), reads left, rfl⟩

def sampleSame (v : libraries.Json) (w : libraries.Cbor) : Prop :=
  match v, w with
  | Json.str s, Sum.inl t => s = t
  | _, _ => False

theorem lookup_two {α : Type} (k first second : String) (v w : α) :
    lookup k [(first, v), (second, w)] =
      if first = k then some v else if second = k then some w else none := by
  rw [lookup_cons, lookup_cons]
  rfl

theorem sample_object : SameObject sampleSame
    ((jsonFormat objects).content (.obj sampleMembers))
    ((cborFormat libraries).content (.inr sampleEntries)) where
  texts := by
    intro e mem
    obtain ⟨pair, _, rfl⟩ := List.mem_map.mp mem
    rfl
  distinct := by
    change ["b", "a"].Nodup
    decide
  fields := by
    intro k
    have json : lookup k ((jsonFormat objects).content (.obj sampleMembers)) =
        if "a" = k then some (.str "x") else if "b" = k then some (.str "y") else none :=
      lookup_two k "a" "b" (Json.str "x") (Json.str "y")
    have cbor : lookup k (textFields libraries (entriesOf sampleEntries)) =
        if "b" = k then some (.inl "y") else if "a" = k then some (.inl "x") else none :=
      lookup_two k "b" "a" (Sum.inl "y" : Value) (Sum.inl "x")
    change Option.Rel sampleSame _ (lookup k (textFields libraries (entriesOf sampleEntries)))
    rw [json, cbor]
    by_cases first : "a" = k
    · subst first
      exact Option.Rel.some rfl
    · by_cases second : "b" = k
      · subst second
        exact Option.Rel.some rfl
      · rw [if_neg first, if_neg second, if_neg second, if_neg first]
        exact Option.Rel.none

theorem sample_masked :
    (∃ out masked,
      ResponseData.withBody libraries ⟨200, [], [], "application/json"⟩
          (textBytes (printed sampleMembers)) "c, b,,b" =
        .ok ⟨200, [], out, "application/json"⟩ ∧
      libraries.parseJson out = .ok masked ∧ objects.members masked = some [("b", .str "y")]) ∧
    ∃ out out' masked masked' ms es,
      ResponseData.withBody libraries ⟨200, [], [], "application/json"⟩
          (textBytes (printed sampleMembers)) "c, b,,b" =
        .ok ⟨200, [], out, "application/json"⟩ ∧
      ResponseData.withBody libraries ⟨200, [], [], "application/cbor"⟩
          (writeTexts sampleEntries) "c, b,,b" =
        .ok ⟨200, [], out', "application/cbor"⟩ ∧
      libraries.parseJson out = .ok masked ∧ objects.members masked = some ms ∧
      libraries.parseCbor out' = .ok masked' ∧ libraries.cborMap masked' = some es ∧
      SameObject sampleSame ms es := by
  obtain ⟨each, both⟩ := listed_fields_kept objects
    (by decide : splitFiltering "c, b,,b" ≠ [])
  obtain ⟨out, masked, parsed, kept, bodies⟩ := each sample_json
  have masks : Takes objects (jsonFormat objects) ⟨200, [], [], "application/json"⟩ :=
    ⟨by decide, rfl⟩
  exact ⟨⟨out, masked, (bodies _ masks).1, parsed, kept⟩,
    both sample_json sample_cbor sample_object _ _ masks ⟨by decide, rfl⟩⟩

end Sample
end MaskLaws
