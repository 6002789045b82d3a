import Mathlib.Data.List.Forall2
import TraceLineage.Proofs.Toml.Reading
import TraceLineage.Settings.Decode

/-!
# What settings a tree describes

Which trees describe settings, and which settings these are, is stated here without the decoder:
field by field, whatever the form of the entries and the order of the keys.  Decoding finds exactly
these settings.  So it does not depend on what the statement does not mention, and a document is
either loaded with the settings that it describes or refused as a whole.
-/

namespace TraceLineage

open Toml (Value)

namespace Toml.Value

def IsText (v : Value) (s : String) : Prop :=
  v = .text s

/-- The value is a text of one character. -/
def IsCharacter (v : Value) (c : Char) : Prop :=
  v = .text (String.singleton c)

/-- The value is a whole number that is not negative. -/
def IsNumber (v : Value) (n : Nat) : Prop :=
  v = .integer n

theorem text?_eq_some_iff
    (v : Value) (s : String) :
    v.text? = some s ↔ v.IsText s := by
  cases v <;> simp [text?, IsText]

theorem char?_eq_some_iff
    (v : Value) (c : Char) :
    v.char? = some c ↔ v.IsCharacter c := by
  cases v with
  | text s =>
    rw [char?, IsCharacter, text.injEq, ← String.toList_inj, String.toList_singleton]
    cases s.toList with
    | nil => simp
    | cons d ds => cases ds <;> simp
  | _ => simp [char?, IsCharacter]

theorem nat?_eq_some_iff
    (v : Value) (n : Nat) :
    v.nat? = some n ↔ v.IsNumber n := by
  cases v with
  | integer m =>
    rw [nat?, IsNumber, integer.injEq, Option.ite_none_right_eq_some, Option.some.injEq]
    omega
  | _ => simp [nat?, IsNumber]

theorem orderless_isText :
    Orderless IsText := by
  rintro v w h s rfl
  cases h
  rfl

theorem orderless_isCharacter :
    Orderless IsCharacter := by
  rintro v w h c rfl
  cases h
  rfl

theorem orderless_isNumber :
    Orderless IsNumber := by
  rintro v w h n rfl
  cases h
  rfl

end Toml.Value

/-- A decoder of the content of an optional field finds what the entry says there. -/
theorem optionalField_eq_some_iff
    {α : Type} {decode : Value → Option α} {content : Value → α → Prop} {v : Value}
    {fields : List String} {k : String} (hv : v.DistinctKeys) (hfields : fields.Nodup)
    (hk : k ∈ fields)
    (hdecode : ∀ x, v.Holds fields k x → ∀ a, decode x = some a ↔ content x a) (o : Option α) :
    optionalField decode (v.field? fields k) = some o ↔ v.Says fields k content o := by
  have hfield := Value.field?_eq_some_iff hv hfields hk
  cases hx : v.field? fields k with
  | none =>
    have hmissing : ∀ x, ¬v.Holds fields k x := by
      intro x hheld
      rw [(hfield x).2 hheld] at hx
      cases hx
    cases o with
    | none => exact iff_of_true rfl hmissing
    | some a =>
      refine iff_of_false (by simp [optionalField]) ?_
      rintro ⟨x, hheld, _⟩
      exact hmissing x hheld
  | some x =>
    have hheld := (hfield x).1 hx
    cases o with
    | none => exact iff_of_false (by simp [optionalField]) fun hmissing => hmissing x hheld
    | some a =>
      rw [optionalField, Option.map_eq_some_iff]
      constructor
      · rintro ⟨_, ha, heq⟩
        cases heq
        exact ⟨x, hheld, (hdecode x hheld a).1 ha⟩
      · rintro ⟨y, hy, ha⟩
        obtain rfl := hy.unique hv hfields hk hheld
        exact ⟨a, (hdecode y hy a).2 ha, rfl⟩

theorem onlyKeys_iff
    (fields : List String) (es : List (String × Value)) :
    onlyKeys fields es = true ↔ ∀ e ∈ es, e.1 ∈ fields := by
  simp only [onlyKeys, List.all_eq_true, List.contains_iff_mem]

/-! ## Schemes -/

namespace SchemeParts

/-- The parts that an entry writes down: all that it has are the three fields, a text, a character
and a number, each of which may be missing. -/
structure Written (v : Value) (s : SchemeParts) : Prop where
  strict : v.Strict keys
  tag : v.Says keys "prefix" Value.IsText s.tag
  delimiter : v.Says keys "delimiter" Value.IsCharacter s.delimiter
  length : v.Says keys "length" Value.IsNumber s.length

/-- An entry that writes down the parts of a scheme. -/
structure Shape (v : Value) : Prop where
  strict : v.Strict keys
  tag : ∀ x, v.Holds keys "prefix" x → ∃ t, x.IsText t
  delimiter : ∀ x, v.Holds keys "delimiter" x → ∃ c, x.IsCharacter c
  length : ∀ x, v.Holds keys "length" x → ∃ n, x.IsNumber n

theorem keys_nodup : keys.Nodup := by decide

theorem ofFields_eq_some_iff
    (tag delimiter length : Option Value) (s : SchemeParts) :
    ofFields tag delimiter length = some s ↔
      optionalField Value.text? tag = some s.tag ∧
      optionalField Value.char? delimiter = some s.delimiter ∧
      optionalField Value.nat? length = some s.length := by
  constructor
  · intro h
    obtain ⟨_, htag, h⟩ := Option.bind_eq_some_iff.1 h
    obtain ⟨_, hdelimiter, h⟩ := Option.bind_eq_some_iff.1 h
    obtain ⟨_, hlength, h⟩ := Option.bind_eq_some_iff.1 h
    cases h
    exact ⟨htag, hdelimiter, hlength⟩
  · rintro ⟨htag, hdelimiter, hlength⟩
    rw [ofFields, htag, hdelimiter, hlength]
    rfl

theorem ofToml?_eq_some_iff_fields
    (v : Value) (s : SchemeParts) :
    ofToml? v = some s ↔ v.Strict keys ∧
      ofFields (v.field? keys "prefix") (v.field? keys "delimiter") (v.field? keys "length") =
        some s := by
  cases v with
  | table es =>
    have hstrict : (Value.table es).Strict keys ↔ onlyKeys keys es = true := by
      rw [onlyKeys_iff]
      constructor
      · intro h
        cases h with
        | table hkeys => exact hkeys
      · exact .table
    rw [ofToml?, Option.ite_none_right_eq_some, hstrict]
    rfl
  | array vs => exact ⟨fun h => ⟨.array vs, h⟩, fun h => h.2⟩
  | text | integer | boolean | float | moment =>
    constructor
    · intro h
      cases h
    · rintro ⟨hstrict, _⟩
      cases hstrict

theorem ofToml?_eq_some_iff
    {v : Value} (hv : v.DistinctKeys) (s : SchemeParts) :
    ofToml? v = some s ↔ Written v s := by
  rw [ofToml?_eq_some_iff_fields, ofFields_eq_some_iff,
    optionalField_eq_some_iff hv keys_nodup (by decide) fun x _ => x.text?_eq_some_iff,
    optionalField_eq_some_iff hv keys_nodup (by decide) fun x _ => x.char?_eq_some_iff,
    optionalField_eq_some_iff hv keys_nodup (by decide) fun x _ => x.nat?_eq_some_iff]
  constructor
  · rintro ⟨hstrict, htag, hdelimiter, hlength⟩
    exact ⟨hstrict, htag, hdelimiter, hlength⟩
  · rintro ⟨hstrict, htag, hdelimiter, hlength⟩
    exact ⟨hstrict, htag, hdelimiter, hlength⟩

theorem exists_written_iff
    {v : Value} (hv : v.DistinctKeys) :
    (∃ s, Written v s) ↔ Shape v := by
  constructor
  · rintro ⟨s, hstrict, htag, hdelimiter, hlength⟩
    exact ⟨hstrict, (Value.exists_says_iff hv keys_nodup (by decide)).1 ⟨_, htag⟩,
      (Value.exists_says_iff hv keys_nodup (by decide)).1 ⟨_, hdelimiter⟩,
      (Value.exists_says_iff hv keys_nodup (by decide)).1 ⟨_, hlength⟩⟩
  · intro h
    obtain ⟨tag, htag⟩ := (Value.exists_says_iff hv keys_nodup (by decide)).2 h.tag
    obtain ⟨delimiter, hdelimiter⟩ :=
      (Value.exists_says_iff hv keys_nodup (by decide)).2 h.delimiter
    obtain ⟨length, hlength⟩ := (Value.exists_says_iff hv keys_nodup (by decide)).2 h.length
    exact ⟨⟨tag, delimiter, length⟩, h.strict, htag, hdelimiter, hlength⟩

theorem orderless_written :
    Value.Orderless Written := by
  intro v w h s hs
  exact ⟨h.strict hs.strict, hs.tag.rearrange Value.orderless_isText h,
    hs.delimiter.rearrange Value.orderless_isCharacter h,
    hs.length.rearrange Value.orderless_isNumber h⟩

theorem written_iff_of_isArrayForm
    {v w : Value} (h : Value.IsArrayForm keys v w) (hv : v.Strict keys) (s : SchemeParts) :
    Written v s ↔ Written w s := by
  obtain ⟨vs, rfl⟩ := h.array
  constructor
  · intro hs
    exact ⟨.array vs, (h.says_iff (by decide) _).1 hs.tag,
      (h.says_iff (by decide) _).1 hs.delimiter, (h.says_iff (by decide) _).1 hs.length⟩
  · intro hs
    exact ⟨hv, (h.says_iff (by decide) _).2 hs.tag, (h.says_iff (by decide) _).2 hs.delimiter,
      (h.says_iff (by decide) _).2 hs.length⟩

end SchemeParts

/-! ## Copied headers -/

namespace CopiedHeader

/-- The keys of the fields, in their order. -/
def keys : List String := ["context_key", "header_name"]

theorem keys_nodup : keys.Nodup := by decide

/-- The copied header that an entry writes down: both its fields are texts. -/
structure Written (v : Value) (a : CopiedHeader) : Prop where
  key : v.Holds keys "context_key" (.text a.key)
  name : v.Holds keys "header_name" (.text a.name)

/-- An entry that writes down a copied header, whatever else it has. -/
structure Shape (v : Value) : Prop where
  key : ∃ t, v.Holds keys "context_key" (.text t)
  name : ∃ t, v.Holds keys "header_name" (.text t)

theorem exists_written_iff
    (v : Value) :
    (∃ a, Written v a) ↔ Shape v := by
  constructor
  · rintro ⟨a, hkey, hname⟩
    exact ⟨⟨a.key, hkey⟩, a.name, hname⟩
  · rintro ⟨⟨key, hkey⟩, name, hname⟩
    exact ⟨⟨key, name⟩, hkey, hname⟩

theorem ofFields_eq_some_iff
    (key name : Option Value) (a : CopiedHeader) :
    ofFields key name = some a ↔ key = some (.text a.key) ∧ name = some (.text a.name) := by
  constructor
  · intro h
    obtain ⟨x, hkey, h⟩ := Option.bind_eq_some_iff.1 h
    obtain ⟨_, hx, h⟩ := Option.bind_eq_some_iff.1 h
    obtain ⟨y, hname, h⟩ := Option.bind_eq_some_iff.1 h
    obtain ⟨_, hy, h⟩ := Option.bind_eq_some_iff.1 h
    cases h
    rw [hkey, hname, (x.text?_eq_some_iff _).1 hx, (y.text?_eq_some_iff _).1 hy]
    exact ⟨rfl, rfl⟩
  · rintro ⟨rfl, rfl⟩
    rfl

theorem ofToml?_eq_ofFields
    (v : Value) :
    ofToml? v = ofFields (v.field? keys "context_key") (v.field? keys "header_name") := by
  cases v <;> rfl

theorem ofToml?_eq_some_iff
    {v : Value} (hv : v.DistinctKeys) (a : CopiedHeader) :
    ofToml? v = some a ↔ Written v a := by
  rw [ofToml?_eq_ofFields, ofFields_eq_some_iff,
    Value.field?_eq_some_iff hv keys_nodup (by decide),
    Value.field?_eq_some_iff hv keys_nodup (by decide)]
  constructor
  · rintro ⟨hkey, hname⟩
    exact ⟨hkey, hname⟩
  · rintro ⟨hkey, hname⟩
    exact ⟨hkey, hname⟩

theorem orderless_written :
    Value.Orderless Written := by
  intro v w h a ha
  have htext : ∀ k t, v.Holds keys k (.text t) → w.Holds keys k (.text t) := by
    intro k t ht
    obtain ⟨y, hy, hty⟩ := h.exists_holds ht
    obtain rfl := Value.orderless_isText hty t rfl
    exact hy
  exact ⟨htext _ _ ha.key, htext _ _ ha.name⟩

/-- An array form of an entry writes down the same copied header. -/
theorem written_iff_of_isArrayForm
    {v w : Value} (h : Value.IsArrayForm keys v w) (a : CopiedHeader) :
    Written v a ↔ Written w a := by
  have hkey := h.holds "context_key" (by decide) (.text a.key)
  have hname := h.holds "header_name" (by decide) (.text a.name)
  constructor
  · intro ha
    exact ⟨hkey.1 ha.key, hname.1 ha.name⟩
  · intro ha
    exact ⟨hkey.2 ha.key, hname.2 ha.name⟩

/-- The copied headers that an array of entries writes down. -/
def ListWritten (v : Value) (as : List CopiedHeader) : Prop :=
  ∃ vs, v = .array vs ∧ List.Forall₂ Written vs as

/-- An array of entries that write down copied headers. -/
def ListShape (v : Value) : Prop :=
  ∃ vs, v = .array vs ∧ ∀ e ∈ vs, Shape e

theorem exists_listWritten_iff
    (v : Value) :
    (∃ as, ListWritten v as) ↔ ListShape v := by
  constructor
  · rintro ⟨as, vs, rfl, has⟩
    refine ⟨vs, rfl, ?_⟩
    induction has with
    | nil => exact fun e he => absurd he List.not_mem_nil
    | cons ha _ ih => exact List.forall_mem_cons.2 ⟨(exists_written_iff _).1 ⟨_, ha⟩, ih⟩
  · rintro ⟨vs, rfl, hvs⟩
    induction vs with
    | nil => exact ⟨[], [], rfl, .nil⟩
    | cons v vs ih =>
      obtain ⟨hv, hvs⟩ := List.forall_mem_cons.1 hvs
      obtain ⟨a, ha⟩ := (exists_written_iff v).2 hv
      obtain ⟨as, _, heq, has⟩ := ih hvs
      cases heq
      exact ⟨a :: as, v :: vs, rfl, .cons ha has⟩

theorem mapM_ofToml?_eq_some_iff
    {vs : List Value} (hvs : ∀ v ∈ vs, v.DistinctKeys) (as : List CopiedHeader) :
    vs.mapM ofToml? = some as ↔ List.Forall₂ Written vs as := by
  induction vs generalizing as with
  | nil =>
    rw [List.mapM_nil, List.forall₂_nil_left_iff]
    constructor
    · intro h
      cases h
      rfl
    · rintro rfl
      rfl
  | cons v vs ih =>
    obtain ⟨hv, hvs⟩ := List.forall_mem_cons.1 hvs
    rw [List.mapM_cons, List.forall₂_cons_left_iff]
    constructor
    · intro h
      obtain ⟨a, ha, h⟩ := Option.bind_eq_some_iff.1 h
      obtain ⟨bs, hbs, h⟩ := Option.bind_eq_some_iff.1 h
      cases h
      exact ⟨a, bs, (ofToml?_eq_some_iff hv a).1 ha, (ih hvs bs).1 hbs, rfl⟩
    · rintro ⟨a, bs, ha, hbs, rfl⟩
      rw [(ofToml?_eq_some_iff hv a).2 ha, (ih hvs bs).2 hbs]
      rfl

theorem listOfToml?_eq_some_iff
    {v : Value} (hv : v.DistinctKeys) (as : List CopiedHeader) :
    listOfToml? v = some as ↔ ListWritten v as := by
  cases hv with
  | @array vs helements =>
    rw [listOfToml?, mapM_ofToml?_eq_some_iff helements]
    constructor
    · intro has
      exact ⟨vs, rfl, has⟩
    · rintro ⟨_, heq, has⟩
      cases heq
      exact has
  | text | integer | boolean | float | moment | table =>
    constructor
    · intro h
      cases h
    · rintro ⟨vs, heq, _⟩
      cases heq

theorem orderless_listWritten :
    Value.Orderless ListWritten := by
  rintro _ w h as ⟨vs, rfl, has⟩
  cases h with
  | same => exact ⟨vs, rfl, has⟩
  | @array _ ws hlength helements =>
    refine ⟨ws, rfl, ?_⟩
    rw [List.forall₂_iff_get] at has ⊢
    refine ⟨hlength.symm.trans has.1, ?_⟩
    intro i hw ha
    have hv : i < vs.length := hlength ▸ hw
    have helement := helements i _ _ (List.getElem?_eq_getElem hv) (List.getElem?_eq_getElem hw)
    exact orderless_written helement _ (has.2 i hv ha)

theorem ListWritten.replace
    {vs ws : List Value} {v w : Value} (h : ∀ a, Written v a → Written w a)
    {as : List CopiedHeader} (has : ListWritten (.array (vs ++ v :: ws)) as) :
    ListWritten (.array (vs ++ w :: ws)) as := by
  obtain ⟨_, heq, has⟩ := has
  cases heq
  refine ⟨_, rfl, ?_⟩
  induction vs generalizing as with
  | nil =>
    cases has with
    | cons ha has => exact .cons (h _ ha) has
  | cons u us ih =>
    cases has with
    | cons ha has => exact .cons ha (ih has)

end CopiedHeader

/-! ## Settings -/

namespace Settings

/-- The settings that a document writes down: it is a table with no keys but the five fields, each
of which has its default where it is missing. -/
structure Written (v : Value) (s : Settings) : Prop where
  keys : ∃ es, v = .table es ∧ ∀ e ∈ es, e.1 ∈ keys
  headerName : ∃ o, v.Says Settings.keys "header_name" Value.IsText o ∧
    s.headerName = o.getD defaultHeaderName
  copiedHeaders : ∃ o, v.Says Settings.keys "additional_headers" CopiedHeader.ListWritten o ∧
    s.copiedHeaders = o.getD []
  schemes : ∀ i : Invoker, ∃ o, v.Says Settings.keys i.name SchemeParts.Written o ∧
    s.parts i = o.getD {}

/-- A document that writes down settings. -/
structure Shape (v : Value) : Prop where
  keys : ∃ es, v = .table es ∧ ∀ e ∈ es, e.1 ∈ keys
  headerName : ∀ x, v.Holds Settings.keys "header_name" x → ∃ t, x.IsText t
  copiedHeaders : ∀ x, v.Holds Settings.keys "additional_headers" x → CopiedHeader.ListShape x
  schemes : ∀ i : Invoker, ∀ x, v.Holds Settings.keys i.name x → SchemeParts.Shape x

theorem keys_nodup : keys.Nodup := by decide

theorem name_mem_keys
    (i : Invoker) :
    i.name ∈ keys := by
  cases i <;> decide

theorem ofToml?_eq_some_iff_fields
    (v : Value) (s : Settings) :
    ofToml? v = some s ↔ (∃ es, v = .table es ∧ ∀ e ∈ es, e.1 ∈ keys) ∧
      (∃ o, optionalField Value.text? (v.field? keys "header_name") = some o ∧
        s.headerName = o.getD defaultHeaderName) ∧
      (∃ o, optionalField CopiedHeader.listOfToml? (v.field? keys "additional_headers") = some o ∧
        s.copiedHeaders = o.getD []) ∧
      ∀ i : Invoker, ∃ o, optionalField SchemeParts.ofToml? (v.field? keys i.name) = some o ∧
        s.parts i = o.getD {} := by
  cases v with
  | table es =>
    rw [ofToml?, Option.ite_none_right_eq_some, onlyKeys_iff]
    constructor
    · rintro ⟨hkeys, h⟩
      obtain ⟨_, hname, h⟩ := Option.bind_eq_some_iff.1 h
      obtain ⟨_, hheaders, h⟩ := Option.bind_eq_some_iff.1 h
      obtain ⟨_, hrequest, h⟩ := Option.bind_eq_some_iff.1 h
      obtain ⟨_, hjob, h⟩ := Option.bind_eq_some_iff.1 h
      obtain ⟨_, hthread, h⟩ := Option.bind_eq_some_iff.1 h
      cases h
      refine ⟨⟨es, rfl, hkeys⟩, ⟨_, hname, rfl⟩, ⟨_, hheaders, rfl⟩, ?_⟩
      intro i
      cases i with
      | request => exact ⟨_, hrequest, rfl⟩
      | job => exact ⟨_, hjob, rfl⟩
      | thread => exact ⟨_, hthread, rfl⟩
    · rintro ⟨⟨_, heq, hkeys⟩, ⟨_, hname, hname'⟩, ⟨_, hheaders, hheaders'⟩, hschemes⟩
      cases heq
      obtain ⟨_, hrequest, hrequest'⟩ := hschemes .request
      obtain ⟨_, hjob, hjob'⟩ := hschemes .job
      obtain ⟨_, hthread, hthread'⟩ := hschemes .thread
      simp only [Value.field?, Invoker.name] at hname hheaders hrequest hjob hthread
      refine ⟨hkeys, ?_⟩
      rw [hname, hheaders, hrequest, hjob, hthread]
      have hs : s = ⟨s.headerName, s.copiedHeaders, s.parts .request, s.parts .job,
        s.parts .thread⟩ := rfl
      rw [hs, hname', hheaders', hrequest', hjob', hthread']
      rfl
  | text | integer | boolean | float | moment | array =>
    constructor
    · intro h
      cases h
    · rintro ⟨⟨_, heq, _⟩, _⟩
      cases heq

theorem ofToml?_eq_some_iff
    {v : Value} (hv : v.DistinctKeys) (s : Settings) :
    ofToml? v = some s ↔ Written v s := by
  have hname := optionalField_eq_some_iff hv keys_nodup (k := "header_name") (by decide)
    fun x _ => x.text?_eq_some_iff
  have hheaders := optionalField_eq_some_iff hv keys_nodup (k := "additional_headers") (by decide)
    fun x hx => CopiedHeader.listOfToml?_eq_some_iff (hx.distinctKeys hv)
  have hschemes := fun i : Invoker => optionalField_eq_some_iff hv keys_nodup (name_mem_keys i)
    fun x hx => SchemeParts.ofToml?_eq_some_iff (hx.distinctKeys hv)
  simp only [ofToml?_eq_some_iff_fields, hname, hheaders, hschemes]
  constructor
  · rintro ⟨hkeys, hname, hheaders, hschemes⟩
    exact ⟨hkeys, hname, hheaders, hschemes⟩
  · rintro ⟨hkeys, hname, hheaders, hschemes⟩
    exact ⟨hkeys, hname, hheaders, hschemes⟩

theorem exists_written_iff
    {v : Value} (hv : v.DistinctKeys) :
    (∃ s, Written v s) ↔ Shape v := by
  have hname : (∃ o, v.Says keys "header_name" Value.IsText o) ↔
      ∀ x, v.Holds keys "header_name" x → ∃ t, x.IsText t :=
    Value.exists_says_iff hv keys_nodup (by decide)
  have hheaders : (∃ o, v.Says keys "additional_headers" CopiedHeader.ListWritten o) ↔
      ∀ x, v.Holds keys "additional_headers" x → ∃ as, CopiedHeader.ListWritten x as :=
    Value.exists_says_iff hv keys_nodup (by decide)
  have hschemes : ∀ i : Invoker, (∃ o, v.Says keys i.name SchemeParts.Written o) ↔
      ∀ x, v.Holds keys i.name x → ∃ p, SchemeParts.Written x p := by
    intro i
    exact Value.exists_says_iff hv keys_nodup (name_mem_keys i)
  constructor
  · rintro ⟨s, hkeys, ⟨o, ho, _⟩, ⟨p, hp, _⟩, hs⟩
    refine ⟨hkeys, hname.1 ⟨o, ho⟩, ?_, ?_⟩
    · intro x hx
      exact (CopiedHeader.exists_listWritten_iff x).1 (hheaders.1 ⟨p, hp⟩ x hx)
    · intro i x hx
      obtain ⟨q, hq, _⟩ := hs i
      exact (SchemeParts.exists_written_iff (hx.distinctKeys hv)).1 ((hschemes i).1 ⟨q, hq⟩ x hx)
  · intro h
    obtain ⟨o, ho⟩ := hname.2 h.headerName
    obtain ⟨p, hp⟩ := hheaders.2 fun x hx =>
      (CopiedHeader.exists_listWritten_iff x).2 (h.copiedHeaders x hx)
    have hparts : ∀ i : Invoker, ∃ q, v.Says keys i.name SchemeParts.Written q := by
      intro i
      exact (hschemes i).2 fun x hx =>
        (SchemeParts.exists_written_iff (hx.distinctKeys hv)).2 (h.schemes i x hx)
    choose q hq using hparts
    refine ⟨⟨o.getD defaultHeaderName, p.getD [], (q .request).getD {}, (q .job).getD {},
      (q .thread).getD {}⟩, h.keys, ⟨o, ho, rfl⟩, ⟨p, hp, rfl⟩, ?_⟩
    intro i
    refine ⟨q i, hq i, ?_⟩
    cases i <;> rfl

theorem orderless_written :
    Value.Orderless Written := by
  rintro v w h s ⟨⟨es, rfl, hkeys⟩, ⟨o, ho, hname⟩, ⟨p, hp, hheaders⟩, hschemes⟩
  refine ⟨?_, ⟨o, ho.rearrange Value.orderless_isText h, hname⟩,
    ⟨p, hp.rearrange CopiedHeader.orderless_listWritten h, hheaders⟩, ?_⟩
  · cases h.strict (.table hkeys) with
    | @table fs hkeys => exact ⟨fs, rfl, hkeys⟩
    | array => cases h
  · intro i
    obtain ⟨q, hq, hparts⟩ := hschemes i
    exact ⟨q, hq.rearrange SchemeParts.orderless_written h, hparts⟩

/-- The second document has an array form of one entry in the place of the entry. -/
inductive Condenses : Value → Value → Prop where
  | scheme {before after : List (String × Value)} (i : Invoker) {v w : Value}
      (strict : v.Strict SchemeParts.keys) (form : Value.IsArrayForm SchemeParts.keys v w) :
      Condenses (.table (before ++ (i.name, v) :: after)) (.table (before ++ (i.name, w) :: after))
  | copiedHeader {before after : List (String × Value)} {vs ws : List Value} {v w : Value}
      (form : Value.IsArrayForm CopiedHeader.keys v w) :
      Condenses (.table (before ++ ("additional_headers", .array (vs ++ v :: ws)) :: after))
        (.table (before ++ ("additional_headers", .array (vs ++ w :: ws)) :: after))

/-- Another value under one key writes down the same settings if it says the same about the field
of this key. -/
theorem Written.replace
    {before after : List (String × Value)} {k : String} {v w : Value} {s : Settings}
    (hname : k = "header_name" → ∀ t, v.IsText t → w.IsText t)
    (hheaders : k = "additional_headers" →
      ∀ as, CopiedHeader.ListWritten v as → CopiedHeader.ListWritten w as)
    (hschemes : ∀ i : Invoker, k = i.name →
      ∀ p, SchemeParts.Written v p → SchemeParts.Written w p)
    (hs : Written (.table (before ++ (k, v) :: after)) s) :
    Written (.table (before ++ (k, w) :: after)) s := by
  obtain ⟨⟨_, heq, hkeys⟩, ⟨o, ho, hname'⟩, ⟨p, hp, hheaders'⟩, hparts⟩ := hs
  cases heq
  refine ⟨⟨_, rfl, ?_⟩, ⟨o, ho.replace hname, hname'⟩, ⟨p, hp.replace hheaders, hheaders'⟩, ?_⟩
  · simp only [List.forall_mem_append, List.forall_mem_cons] at hkeys ⊢
    exact hkeys
  · intro i
    obtain ⟨q, hq, hi⟩ := hparts i
    exact ⟨q, hq.replace (hschemes i), hi⟩

theorem Condenses.written_iff
    {v w : Value} (h : Condenses v w) (s : Settings) :
    Written v s ↔ Written w s := by
  cases h with
  | scheme i hstrict hform =>
    have hname : i.name ≠ "header_name" := by cases i <;> decide
    have hheaders : i.name ≠ "additional_headers" := by cases i <;> decide
    have hparts := SchemeParts.written_iff_of_isArrayForm hform hstrict
    exact ⟨Written.replace (absurd · hname) (absurd · hheaders) fun _ _ p => (hparts p).1,
      Written.replace (absurd · hname) (absurd · hheaders) fun _ _ p => (hparts p).2⟩
  | copiedHeader hform =>
    have hname : "additional_headers" ≠ "header_name" := by decide
    have hinvoker : ∀ i : Invoker, "additional_headers" ≠ i.name := by
      intro i
      cases i <;> decide
    have hheader := CopiedHeader.written_iff_of_isArrayForm hform
    exact ⟨Written.replace (absurd · hname)
        (fun _ _ => CopiedHeader.ListWritten.replace fun a => (hheader a).1)
        fun i hi => absurd hi (hinvoker i),
      Written.replace (absurd · hname)
        (fun _ _ => CopiedHeader.ListWritten.replace fun a => (hheader a).2)
        fun i hi => absurd hi (hinvoker i)⟩

theorem ofToml?_congr
    {v w : Value} (hv : v.DistinctKeys) (hw : w.DistinctKeys)
    (h : ∀ s, Written v s ↔ Written w s) :
    ofToml? w = ofToml? v := by
  apply Option.ext
  intro s
  rw [ofToml?_eq_some_iff hw, ofToml?_eq_some_iff hv, h]

/-- Settings are decoded exactly.  A tree is decoded if and only if it has the shape of settings,
and what is decoded are the settings that it writes down.  In which order the keys of its tables
stand, at any depth, does not matter, and neither does which of the two forms an entry has.  So a
text is loaded with the settings that its tree writes down, or it is refused as unreadable, with
whatever diagnosis there is of it, and nothing is written to the log, because it is no document or
its tree has not the shape of settings. -/
theorem decodes_what_is_written :
    (∀ v : Value, v.DistinctKeys →
      ((∃ s, ofToml? v = some s) ↔ Shape v) ∧
      (∀ s, ofToml? v = some s ↔ Written v s) ∧
      (∀ w, v.Rearranges w → ofToml? w = ofToml? v) ∧
      ∀ w, w.DistinctKeys → Condenses v w → ofToml? w = ofToml? v) ∧
    ∀ (text : String) (f : Facilities) (diagnose : String → Option String),
      (∃ v s, Toml.parse text = some v ∧ v.DistinctKeys ∧ Shape v ∧ Written v s ∧
        Config.loadToml text f diagnose = Config.load s f) ∨
      (∀ v, Toml.parse text = some v → v.DistinctKeys ∧ ¬Shape v) ∧
        Config.loadToml text f diagnose =
          (.error (.configuration (.unreadable (diagnose text))), f) := by
  have hshape : ∀ v : Value, v.DistinctKeys → ((∃ s, ofToml? v = some s) ↔ Shape v) := by
    intro v hv
    simp only [ofToml?_eq_some_iff hv, exists_written_iff hv]
  constructor
  · intro v hv
    refine ⟨hshape v hv, ofToml?_eq_some_iff hv, ?_, ?_⟩
    · intro w hvw
      refine ofToml?_congr hv (hvw.distinctKeys hv) fun s => ?_
      exact ⟨orderless_written hvw s, orderless_written hvw.symm s⟩
    · intro w hw hvw
      exact ofToml?_congr hv hw hvw.written_iff
  · intro text f diagnose
    cases hparse : Toml.parse text with
    | none =>
      right
      constructor
      · intro v hv
        cases hv
      · rw [Config.loadToml, parse?, hparse, Option.bind_none]
    | some v =>
      have hv := (Toml.distinctKeys_of_parse hparse).1
      cases hs : ofToml? v with
      | none =>
        right
        constructor
        · rintro _ ⟨⟩
          refine ⟨hv, fun h => ?_⟩
          obtain ⟨s, hsome⟩ := (hshape v hv).2 h
          rw [hs] at hsome
          cases hsome
        · rw [Config.loadToml, parse?, hparse, Option.bind_some, hs]
      | some s =>
        left
        refine ⟨v, s, rfl, hv, (hshape v hv).1 ⟨s, hs⟩, (ofToml?_eq_some_iff hv s).1 hs, ?_⟩
        rw [Config.loadToml, parse?, hparse, Option.bind_some, hs]

/-- A document with the keys of an entry in another order, an array form of this entry with an
element too many, and a copied header with a key too many. -/
theorem decodes_what_is_written_in_three_ways :
    let header : Value := .table
      [("note", .integer 1), ("header_name", .text "X-Tenant"), ("context_key", .text "tenant")]
    let document (v : Value) : Value := .table
      [("request", v), ("additional_headers", .array [header])]
    let entry := document <| .table
      [("prefix", .text "rq"), ("delimiter", .text "-"), ("length", .integer 8)]
    let turned := document <| .table
      [("length", .integer 8), ("prefix", .text "rq"), ("delimiter", .text "-")]
    let row := document <| .array [.text "rq", .text "-", .integer 8, .boolean true]
    let s : Settings :=
      { request := ⟨some "rq", some '-', some 8⟩, copiedHeaders := [⟨"tenant", "X-Tenant"⟩] }
    entry.DistinctKeys ∧ entry.Rearranges turned ∧ row.DistinctKeys ∧ Condenses entry row ∧
      ofToml? entry = some s ∧ ofToml? turned = some s ∧ ofToml? row = some s ∧
      Shape entry ∧ Written entry s := by
  intro header document entry turned row s
  have hkeys : ["request", "additional_headers"].Nodup := by decide
  have hheader : header.DistinctKeys := by
    refine .table (by decide) ?_
    simp only [List.forall_mem_cons]
    exact ⟨.integer 1, .text _, .text _, fun _ he => absurd he List.not_mem_nil⟩
  have hdocument : ∀ v, v.DistinctKeys → (document v).DistinctKeys := by
    intro v hv
    refine .table hkeys ?_
    simp only [List.forall_mem_cons]
    refine ⟨hv, .array ?_, fun _ he => absurd he List.not_mem_nil⟩
    exact List.forall_mem_singleton.2 hheader
  have hparts : (Value.table
      [("prefix", .text "rq"), ("delimiter", .text "-"), ("length", .integer 8)]).DistinctKeys := by
    refine .table (by decide) ?_
    simp only [List.forall_mem_cons]
    exact ⟨.text _, .text _, .integer 8, fun _ he => absurd he List.not_mem_nil⟩
  have hfields : (Value.array
      [.text "rq", .text "-", .integer 8, .boolean true]).DistinctKeys := by
    refine .array ?_
    simp only [List.forall_mem_cons]
    exact ⟨.text _, .text _, .integer 8, .boolean true, fun _ he => absurd he List.not_mem_nil⟩
  have hentry := hdocument _ hparts
  have hrow := hdocument _ hfields
  have hturned : entry.Rearranges turned := by
    refine .table (.refl _) ?_
    intro k v w hv hw
    simp only [List.mem_cons, Prod.mk.injEq, List.not_mem_nil, or_false] at hv hw
    rcases hv with ⟨rfl, rfl⟩ | ⟨rfl, rfl⟩
    · rcases hw with ⟨-, rfl⟩ | ⟨hk, -⟩
      · exact Value.rearranges_of_perm (by decide) (.trans (.cons _ (.swap _ _ _)) (.swap _ _ _))
      · exact absurd hk (by decide)
    · rcases hw with ⟨hk, -⟩ | ⟨-, rfl⟩
      · exact absurd hk (by decide)
      · exact .same _
  have hcondenses : Condenses entry row := by
    refine @Condenses.scheme [] _ .request _ _ (.table (by decide)) ?_
    refine Value.isArrayForm_of_lookup hparts hfields SchemeParts.keys_nodup ?_
    simp only [SchemeParts.keys, List.forall_mem_cons]
    exact ⟨rfl, rfl, rfl, fun _ hk => absurd hk List.not_mem_nil⟩
  have hs : ofToml? entry = some s := by decide +kernel
  obtain ⟨hshape, hwritten, horder, hform⟩ := decodes_what_is_written.1 entry hentry
  exact ⟨hentry, hturned, hrow, hcondenses, hs, (horder turned hturned).trans hs,
    (hform row hrow hcondenses).trans hs, hshape.1 ⟨s, hs⟩, (hwritten s).1 hs⟩

/-- The array form is read from a text as well. -/
example :
    parse? "request = ['rq', '-', 8, true]" =
      some { request := ⟨some "rq", some '-', some 8⟩ } := by
  decide +kernel

end Settings
end TraceLineage
