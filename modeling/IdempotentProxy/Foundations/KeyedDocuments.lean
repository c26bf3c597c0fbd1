import Mathlib.Data.List.Basic

/-!
Documents whose top level has named entries, in a format with a parser and a printer, and
the mask that keeps the entries with a listed name. Where the parser takes back what was
printed, a mask is a filter, and two masks are the mask of the common names.
-/
namespace KeyedDocuments

structure Format (Text Error Name : Type) where
  Doc : Type
  Entry : Type
  parse : Text → Except Error Doc
  /-- The top level, where it has entries. -/
  entries : Doc → Option (List Entry)
  name : Entry → Option Name
  print : List Entry → Except Error Text

namespace Format
variable {Text Error Name : Type} [DecidableEq Name] (fmt : Format Text Error Name)

def content (doc : fmt.Doc) : List fmt.Entry := (fmt.entries doc).getD []

def listed (names : List Name) (e : fmt.Entry) : Bool :=
  match fmt.name e with
  | some n => names.contains n
  | none => false

def mask (names : List Name) (text : Text) : Except Error Text := do
  let doc ← fmt.parse text
  fmt.print ((fmt.content doc).filter (fmt.listed names))

/-- Any of these entries are printed, and parsed to themselves. -/
def Inverts (es : List fmt.Entry) : Prop :=
  ∀ kept, List.Sublist kept es →
    ∃ text doc, fmt.print kept = .ok text ∧ fmt.parse text = .ok doc ∧ fmt.entries doc = some kept

variable {fmt}

theorem listed_iff {names : List Name} {e : fmt.Entry} :
    fmt.listed names e = true ↔ ∃ n ∈ names, fmt.name e = some n := by
  unfold listed
  cases fmt.name e with
  | none => simp
  | some n => simp

theorem filter_common {first second both : List Name}
    (common : ∀ n, n ∈ both ↔ n ∈ first ∧ n ∈ second) (es : List fmt.Entry) :
    (es.filter (fmt.listed first)).filter (fmt.listed second) = es.filter (fmt.listed both) := by
  rw [List.filter_filter]
  apply List.filter_congr
  intro e _
  rw [Bool.eq_iff_iff, Bool.and_eq_true, listed_iff, listed_iff, listed_iff]
  constructor
  · rintro ⟨⟨n, inSecond, named⟩, m, inFirst, named'⟩
    have same : m = n := Option.some.inj (named'.symm.trans named)
    exact ⟨n, (common n).mpr ⟨same ▸ inFirst, inSecond⟩, named⟩
  · rintro ⟨n, inBoth, named⟩
    obtain ⟨inFirst, inSecond⟩ := (common n).mp inBoth
    exact ⟨⟨n, inSecond, named⟩, n, inFirst, named⟩

theorem mask_failed {text : Text} {e : Error} (failed : fmt.parse text = .error e)
    (names : List Name) : fmt.mask names text = .error e := by
  unfold mask
  rw [failed]
  rfl

section Masked
variable {text out : Text} {doc : fmt.Doc} (parsed : fmt.parse text = .ok doc)
include parsed

theorem mask_parsed (names : List Name) :
    fmt.mask names text = fmt.print ((fmt.content doc).filter (fmt.listed names)) := by
  unfold mask
  rw [parsed]
  rfl

variable (inverts : fmt.Inverts (fmt.content doc))
include inverts

theorem mask_kept (names : List Name) :
    ∃ out masked, fmt.mask names text = .ok out ∧ fmt.parse out = .ok masked ∧
      fmt.entries masked = some ((fmt.content doc).filter (fmt.listed names)) := by
  obtain ⟨out, masked, printed, parsed', kept⟩ := inverts _ List.filter_sublist
  exact ⟨out, masked, (mask_parsed parsed names).trans printed, parsed', kept⟩

/-- Masking what was masked is masking once, with the common names. -/
theorem mask_masked {first second both : List Name} (masked : fmt.mask first text = .ok out)
    (common : ∀ n, n ∈ both ↔ n ∈ first ∧ n ∈ second) :
    fmt.mask second out = fmt.mask both text := by
  obtain ⟨out', doc', masked', parsed', kept⟩ := mask_kept parsed inverts first
  rw [masked, Except.ok.injEq] at masked'
  subst masked'
  have left : fmt.content doc' = (fmt.content doc).filter (fmt.listed first) := by
    rw [content, kept]
    rfl
  rw [mask_parsed parsed', mask_parsed parsed, left, filter_common common]

theorem mask_again {names : List Name} (masked : fmt.mask names text = .ok out) :
    fmt.mask names out = .ok out :=
  (mask_masked parsed inverts masked fun _ => (and_self_iff).symm).trans masked

end Masked
end Format
end KeyedDocuments
