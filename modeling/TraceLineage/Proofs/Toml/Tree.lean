import Mathlib.Data.List.Nodup
import TraceLineage.Toml.Value

/-!
# TOML trees

No table of a document has a key twice.  In such a tree a table is nothing but its values under
their keys, and the order of the keys does not matter.  An entry with a fixed list of fields comes
in two forms, as a table and as an array of the values of its fields, and says the same in both.
-/

namespace TraceLineage
namespace Toml

/-- Where no key occurs twice, looking up a key finds whatever stands under it. -/
theorem lookup_eq_some_iff_mem
    {α : Type} {es : List (String × α)} (hes : (es.map Prod.fst).Nodup) (k : String) (a : α) :
    es.lookup k = some a ↔ (k, a) ∈ es := by
  rw [List.lookup_eq_some_iff]
  constructor
  · rintro ⟨before, after, rfl, -⟩
    exact List.mem_append_right before List.mem_cons_self
  · intro hmem
    obtain ⟨before, after, rfl⟩ := List.append_of_mem hmem
    refine ⟨before, after, rfl, ?_⟩
    intro e he
    rw [List.map_append, List.map_cons, List.nodup_append] at hes
    have hne := hes.2.2 e.1 (List.mem_map_of_mem he) k List.mem_cons_self
    exact bne_iff_ne.2 hne.symm

namespace Value

/-- No table in the value has a key twice. -/
inductive DistinctKeys : Value → Prop where
  | text (s : String) : DistinctKeys (.text s)
  | integer (n : Int) : DistinctKeys (.integer n)
  | boolean (b : Bool) : DistinctKeys (.boolean b)
  | float (written : String) : DistinctKeys (.float written)
  | moment (written : String) : DistinctKeys (.moment written)
  | array {vs : List Value} (elements : ∀ v ∈ vs, DistinctKeys v) : DistinctKeys (.array vs)
  | table {es : List (String × Value)} (nodup : (es.map Prod.fst).Nodup)
      (values : ∀ e ∈ es, DistinctKeys e.2) : DistinctKeys (.table es)

/-! ## Fields of entries -/

/-- An entry holds a value in a field: a table under the key of the field, and an array at the place
of the field among all fields. -/
inductive Holds (fields : List String) : Value → String → Value → Prop where
  | table {es : List (String × Value)} {k : String} {x : Value} (mem : (k, x) ∈ es) :
      Holds fields (.table es) k x
  | array {vs : List Value} {k : String} {x : Value} {i : Nat} (field : fields[i]? = some k)
      (element : vs[i]? = some x) : Holds fields (.array vs) k x

/-- What an entry says in an optional field: the content of the value that it holds there, or
nothing if it holds none. -/
def Says {α : Type} (v : Value) (fields : List String) (k : String)
    (content : Value → α → Prop) : Option α → Prop
  | none => ∀ x, ¬v.Holds fields k x
  | some a => ∃ x, v.Holds fields k x ∧ content x a

/-- An entry that has nothing but its fields, as far as it is a table. -/
inductive Strict (fields : List String) : Value → Prop where
  | table {es : List (String × Value)} (keys : ∀ e ∈ es, e.1 ∈ fields) : Strict fields (.table es)
  | array (vs : List Value) : Strict fields (.array vs)

/-- The value that an entry holds in a field. -/
def field? (v : Value) (fields : List String) (k : String) : Option Value :=
  match v with
  | table es => es.lookup k
  | array vs => vs[fields.idxOf k]?
  | _ => none

variable {fields : List String} {v w : Value} {k : String} {α : Type} {content : Value → α → Prop}

theorem field?_eq_some_iff
    (hv : v.DistinctKeys) (hfields : fields.Nodup) (hk : k ∈ fields) (x : Value) :
    v.field? fields k = some x ↔ v.Holds fields k x := by
  cases hv with
  | text | integer | boolean | float | moment =>
    constructor
    · intro hnone
      cases hnone
    · intro hx
      cases hx
  | array _ =>
    have hplace := List.getElem?_idxOf hk
    constructor
    · exact .array hplace
    · intro hx
      cases hx with
      | @array _ _ _ i hfield helement =>
        have hlt := (List.getElem?_eq_some_iff.1 hfield).1
        obtain rfl := (List.getElem?_inj hlt hfields).1 (hfield.trans hplace.symm)
        exact helement
  | @table es hnodup _ =>
    rw [field?, lookup_eq_some_iff_mem hnodup]
    constructor
    · exact .table
    · intro hx
      cases hx with
      | table hmem => exact hmem

theorem Holds.unique
    (hv : v.DistinctKeys) (hfields : fields.Nodup) (hk : k ∈ fields) {x y : Value}
    (hx : v.Holds fields k x) (hy : v.Holds fields k y) :
    x = y := by
  rw [← field?_eq_some_iff hv hfields hk] at hx hy
  exact Option.some.inj (hx.symm.trans hy)

theorem Holds.distinctKeys
    {x : Value} (hx : v.Holds fields k x) (hv : v.DistinctKeys) :
    x.DistinctKeys := by
  cases hx with
  | table hmem =>
    cases hv with
    | table _ hvalues => exact hvalues _ hmem
  | array _ helement =>
    cases hv with
    | array helements => exact helements _ (List.mem_of_getElem? helement)

/-- An optional field says something exactly if the value in it, if there is one, has a content. -/
theorem exists_says_iff
    (hv : v.DistinctKeys) (hfields : fields.Nodup) (hk : k ∈ fields) :
    (∃ o, v.Says fields k content o) ↔ ∀ x, v.Holds fields k x → ∃ a, content x a := by
  constructor
  · rintro ⟨o, ho⟩ x hx
    cases o with
    | none => exact absurd hx (ho x)
    | some a =>
      obtain ⟨y, hy, ha⟩ := ho
      obtain rfl := hx.unique hv hfields hk hy
      exact ⟨a, ha⟩
  · intro hcontent
    by_cases hheld : ∃ x, v.Holds fields k x
    · obtain ⟨x, hx⟩ := hheld
      obtain ⟨a, ha⟩ := hcontent x hx
      exact ⟨some a, x, hx, ha⟩
    · exact ⟨none, not_exists.1 hheld⟩

/-- Two entries say the same in a field if each value in the one has a counterpart in the other. -/
theorem Says.congr
    (hvw : ∀ x, v.Holds fields k x → ∃ y, w.Holds fields k y ∧ ∀ a, content x a → content y a)
    (hwv : ∀ y, w.Holds fields k y → ∃ x, v.Holds fields k x) {o : Option α}
    (ho : v.Says fields k content o) :
    w.Says fields k content o := by
  cases o with
  | none =>
    intro y hy
    obtain ⟨x, hx⟩ := hwv y hy
    exact ho x hx
  | some a =>
    obtain ⟨x, hx, ha⟩ := ho
    obtain ⟨y, hy, hcontent⟩ := hvw x hx
    exact ⟨y, hy, hcontent a ha⟩

/-- A table with another value under one key says the same in a field if both values do. -/
theorem Says.replace
    {before after : List (String × Value)} {k' : String} {x y : Value}
    (hxy : k' = k → ∀ a, content x a → content y a) {o : Option α}
    (ho : (Value.table (before ++ (k', x) :: after)).Says fields k content o) :
    (Value.table (before ++ (k', y) :: after)).Says fields k content o := by
  have hother : ∀ {z x y : Value}, (k, z) ∈ before ++ (k', x) :: after →
      (k, z) ∈ before ++ (k', y) :: after ∨ k = k' ∧ z = x := by
    intro z x y hz
    simp only [List.mem_append, List.mem_cons, Prod.mk.injEq] at hz ⊢
    tauto
  refine ho.congr (fun z hz => ?_) (fun z hz => ?_)
  · cases hz with
    | table hmem =>
      rcases hother hmem with hz | ⟨rfl, rfl⟩
      · exact ⟨z, .table hz, fun _ ha => ha⟩
      · exact ⟨y, .table (List.mem_append_right before List.mem_cons_self), hxy rfl⟩
  · cases hz with
    | table hmem =>
      rcases hother hmem with hz | ⟨rfl, rfl⟩
      · exact ⟨z, .table hz⟩
      · exact ⟨x, .table (List.mem_append_right before List.mem_cons_self)⟩

/-! ## The order of keys -/

/-- The values differ in nothing but the order of the keys of tables, at any depth. -/
inductive Rearranges : Value → Value → Prop where
  | same (v : Value) : Rearranges v v
  | array {vs ws : List Value} (length_eq : vs.length = ws.length)
      (elements : ∀ (i : Nat) (v w : Value), vs[i]? = some v → ws[i]? = some w → Rearranges v w) :
      Rearranges (.array vs) (.array ws)
  | table {es fs : List (String × Value)} (keys : (es.map Prod.fst).Perm (fs.map Prod.fst))
      (values : ∀ k v w, (k, v) ∈ es → (k, w) ∈ fs → Rearranges v w) :
      Rearranges (.table es) (.table fs)

theorem rearranges_of_perm
    {es fs : List (String × Value)} (hes : (es.map Prod.fst).Nodup) (hperm : es.Perm fs) :
    Rearranges (.table es) (.table fs) := by
  refine .table (hperm.map Prod.fst) ?_
  intro k v w hv hw
  rw [← hperm.mem_iff, ← lookup_eq_some_iff_mem hes] at hw
  rw [← lookup_eq_some_iff_mem hes, hw, Option.some.injEq] at hv
  rw [hv]
  exact .same v

theorem Rearranges.symm
    (h : v.Rearranges w) :
    w.Rearranges v := by
  induction h with
  | same v => exact .same v
  | array hlength _ ih => exact .array hlength.symm fun i w v hw hv => ih i v w hv hw
  | table hkeys _ ih => exact .table hkeys.symm fun k w v hw hv => ih k v w hv hw

theorem exists_mem_of_perm_keys
    {es fs : List (String × Value)} (hkeys : (es.map Prod.fst).Perm (fs.map Prod.fst)) {k : String}
    {v : Value} (hv : (k, v) ∈ es) :
    ∃ w, (k, w) ∈ fs := by
  have hk : k ∈ fs.map Prod.fst := hkeys.mem_iff.1 (List.mem_map_of_mem hv)
  obtain ⟨⟨_, w⟩, hw, rfl⟩ := List.mem_map.1 hk
  exact ⟨w, hw⟩

theorem Rearranges.distinctKeys
    (h : v.Rearranges w) (hv : v.DistinctKeys) :
    w.DistinctKeys := by
  induction h with
  | same v => exact hv
  | @array vs ws hlength _ ih =>
    cases hv with
    | array helements =>
      refine .array fun w hw => ?_
      obtain ⟨i, hi⟩ := List.mem_iff_getElem?.1 hw
      have hlt : i < vs.length := hlength ▸ (List.getElem?_eq_some_iff.1 hi).1
      have helement := List.getElem?_eq_getElem hlt
      exact ih i _ w helement hi (helements _ (List.getElem_mem hlt))
  | table hkeys _ ih =>
    cases hv with
    | table hnodup hvalues =>
      refine .table (hkeys.nodup_iff.1 hnodup) fun ⟨k, w⟩ hw => ?_
      obtain ⟨v, hv⟩ := exists_mem_of_perm_keys hkeys.symm hw
      exact ih k v w hv hw (hvalues _ hv)

/-- What is held in a field is held there in another order, too. -/
theorem Rearranges.exists_holds
    (h : v.Rearranges w) {x : Value} (hx : v.Holds fields k x) :
    ∃ y, w.Holds fields k y ∧ x.Rearranges y := by
  cases h with
  | same => exact ⟨x, hx, .same x⟩
  | array hlength helements =>
    cases hx with
    | @array _ _ _ i hfield helement =>
      have hlt := (List.getElem?_eq_some_iff.1 helement).1
      have hother := List.getElem?_eq_getElem (hlength ▸ hlt)
      exact ⟨_, .array hfield hother, helements i x _ helement hother⟩
  | table hkeys hvalues =>
    cases hx with
    | table hmem =>
      obtain ⟨y, hy⟩ := exists_mem_of_perm_keys hkeys hmem
      exact ⟨y, .table hy, hvalues k x y hmem hy⟩

theorem Rearranges.strict
    (h : v.Rearranges w) (hv : v.Strict fields) :
    w.Strict fields := by
  cases h with
  | same => exact hv
  | array => exact .array _
  | table hkeys _ =>
    cases hv with
    | table hamong =>
      refine .table fun ⟨k, x⟩ hx => ?_
      obtain ⟨y, hy⟩ := exists_mem_of_perm_keys hkeys.symm hx
      exact hamong (k, y) hy

/-- A content that does not depend on the order of keys. -/
def Orderless (content : Value → α → Prop) : Prop :=
  ∀ ⦃v w⦄, v.Rearranges w → ∀ a, content v a → content w a

theorem Says.rearrange
    (hcontent : Orderless content) (h : v.Rearranges w) {o : Option α}
    (ho : v.Says fields k content o) :
    w.Says fields k content o := by
  refine ho.congr (fun x hx => ?_) (fun y hy => ?_)
  · obtain ⟨y, hy, hxy⟩ := h.exists_holds hx
    exact ⟨y, hy, hcontent hxy⟩
  · obtain ⟨x, hx, _⟩ := h.symm.exists_holds hy
    exact ⟨x, hx⟩

/-! ## The array form -/

/-- An array is an array form of a table: each field holds the same in both.  So the fields that
the table has must be the first ones, and what stands behind the last field does not matter. -/
structure IsArrayForm (fields : List String) (v w : Value) : Prop where
  table : ∃ es, v = .table es
  array : ∃ vs, w = .array vs
  holds : ∀ k ∈ fields, ∀ x, v.Holds fields k x ↔ w.Holds fields k x

/-- The fields of both forms can be compared by looking them up. -/
theorem isArrayForm_of_lookup
    {es : List (String × Value)} {vs : List Value} (hes : (Value.table es).DistinctKeys)
    (hvs : (Value.array vs).DistinctKeys) (hfields : fields.Nodup)
    (h : ∀ k ∈ fields, es.lookup k = vs[fields.idxOf k]?) :
    IsArrayForm fields (.table es) (.array vs) := by
  refine ⟨⟨es, rfl⟩, ⟨vs, rfl⟩, ?_⟩
  intro k hk x
  rw [← field?_eq_some_iff hes hfields hk, ← field?_eq_some_iff hvs hfields hk, field?, field?,
    h k hk]

theorem IsArrayForm.says_iff
    (h : IsArrayForm fields v w) (hk : k ∈ fields) (o : Option α) :
    v.Says fields k content o ↔ w.Says fields k content o := by
  have hholds := h.holds k hk
  constructor
  · intro ho
    refine ho.congr (fun x hx => ?_) (fun y hy => ?_)
    · exact ⟨x, (hholds x).1 hx, fun _ ha => ha⟩
    · exact ⟨y, (hholds y).2 hy⟩
  · intro ho
    refine ho.congr (fun x hx => ?_) (fun y hy => ?_)
    · exact ⟨x, (hholds x).2 hx, fun _ ha => ha⟩
    · exact ⟨y, (hholds y).1 hy⟩

end Value
end Toml
end TraceLineage
