import TraceLineage.Proofs.Adapter.Arrival
import TraceLineage.Proofs.Execution.Replay
import TraceLineage.Proofs.Minting.Injectivity

/-!
# Copied headers and the id of a request

A request begins with two things that have nothing to do with each other.  The values of the copied
headers go into the auxiliary fields, where a later header for the same key wins over an earlier
one, and a header without a value is passed over.  The value of the trace header goes into the id.
-/

namespace TraceLineage
namespace Arrival

/-! ## The last value for a key -/

/-- The value that a copied header has for a key. -/
def valueFor? (lookup : HeaderLookup) (k : String) (a : CopiedHeader) : Option String :=
  if a.key = k then lookup a.name else none

theorem valueFor?_eq_some_iff
    {lookup : HeaderLookup} {k v : String} {a : CopiedHeader} :
    valueFor? lookup k a = some v ↔ a.key = k ∧ lookup a.name = some v := by
  rw [valueFor?, Option.ite_none_right_eq_some]

theorem valueFor?_eq_none_iff
    {lookup : HeaderLookup} {k : String} {a : CopiedHeader} :
    valueFor? lookup k a = none ↔ (a.key = k → lookup a.name = none) := by
  rw [valueFor?]
  by_cases hkey : a.key = k
  · simp [hkey]
  · simp [hkey]

def copy (lookup : HeaderLookup) (ctx : Context) (a : CopiedHeader) : Context :=
  (lookup a.name).elim ctx (ctx.put a.key)

theorem initialContext_eq_foldl
    (c : Config) (lookup : HeaderLookup) :
    initialContext c lookup = c.copiedHeaders.foldl (copy lookup) .empty := by
  rw [initialContext]
  congr 1
  funext ctx a
  rw [copy]
  cases lookup a.name <;> rfl

theorem get?_copy
    (lookup : HeaderLookup) (ctx : Context) (a : CopiedHeader) (k : String) :
    (copy lookup ctx a).auxiliary.get? k =
      (valueFor? lookup k a).or (ctx.auxiliary.get? k) := by
  rw [copy, valueFor?]
  cases hvalue : lookup a.name with
  | none => simp
  | some value =>
    have hput : (ctx.put a.key value).auxiliary.get? k =
        if k = a.key then some value else ctx.auxiliary.get? k :=
      ctx.auxiliary.get?_insert a.key value k
    rw [Option.elim_some, hput]
    by_cases hkey : a.key = k
    · simp [hkey]
    · simp [hkey, Ne.symm hkey]

/-- Of the values for a key the last one is kept, and where there is none the field stays. -/
theorem get?_foldl_copy
    (lookup : HeaderLookup) (as : List CopiedHeader) (ctx : Context) (k : String) :
    (as.foldl (copy lookup) ctx).auxiliary.get? k =
      (as.filterMap (valueFor? lookup k)).getLast?.or (ctx.auxiliary.get? k) := by
  induction as generalizing ctx with
  | nil => rfl
  | cons a as ih =>
    rw [List.foldl_cons, ih, get?_copy]
    cases hvalue : valueFor? lookup k a with
    | none => rw [List.filterMap_cons_none hvalue, Option.none_or]
    | some v =>
      rw [List.filterMap_cons_some hvalue, List.getLast?_cons, Option.some_or]
      cases (as.filterMap (valueFor? lookup k)).getLast? <;> rfl

theorem get?_auxiliary_initialContext
    (c : Config) (lookup : HeaderLookup) (k : String) :
    (initialContext c lookup).auxiliary.get? k =
      (c.copiedHeaders.filterMap (valueFor? lookup k)).getLast? := by
  have hnone : Context.empty.auxiliary.get? k = none := rfl
  rw [initialContext_eq_foldl, get?_foldl_copy, hnone, Option.or_none]

/-- The last value for a key, in terms of the headers: none of those behind its header has one. -/
theorem getLast?_valueFor?_eq_some_iff
    {lookup : HeaderLookup} {as : List CopiedHeader} {k v : String} :
    (as.filterMap (valueFor? lookup k)).getLast? = some v ↔
      ∃ before a after, as = before ++ a :: after ∧ (a.key = k ∧ lookup a.name = some v) ∧
        ∀ b ∈ after, b.key = k → lookup b.name = none := by
  rw [List.getLast?_eq_some_iff]
  constructor
  · rintro ⟨vs, hvs⟩
    obtain ⟨front, rest, rfl, -, hrest⟩ := List.filterMap_eq_append_iff.1 hvs
    obtain ⟨skipped, a, after, rfl, -, ha, hafter⟩ := List.filterMap_eq_cons_iff.1 hrest
    refine ⟨front ++ skipped, a, after, ?_, valueFor?_eq_some_iff.1 ha, ?_⟩
    · rw [List.append_assoc]
    · intro b hb
      exact valueFor?_eq_none_iff.1 (List.filterMap_eq_nil_iff.1 hafter b hb)
  · rintro ⟨before, a, after, rfl, ha, hafter⟩
    have hnone : after.filterMap (valueFor? lookup k) = [] :=
      List.filterMap_eq_nil_iff.2 fun b hb => valueFor?_eq_none_iff.2 (hafter b hb)
    refine ⟨before.filterMap (valueFor? lookup k), ?_⟩
    rw [List.filterMap_append, List.filterMap_cons_some (valueFor?_eq_some_iff.2 ha), hnone]

/-- A key has a last value exactly if some header has a value for it. -/
theorem isSome_getLast?_valueFor?_iff
    {lookup : HeaderLookup} {as : List CopiedHeader} {k : String} :
    (as.filterMap (valueFor? lookup k)).getLast?.isSome = true ↔
      ∃ a ∈ as, a.key = k ∧ (lookup a.name).isSome = true := by
  rw [List.getLast?_isSome]
  constructor
  · intro hne
    obtain ⟨v, hv⟩ := List.exists_mem_of_ne_nil _ hne
    obtain ⟨a, ha, hvalue⟩ := List.mem_filterMap.1 hv
    obtain ⟨hkey, hlookup⟩ := valueFor?_eq_some_iff.1 hvalue
    exact ⟨a, ha, hkey, Option.isSome_of_eq_some hlookup⟩
  · rintro ⟨a, ha, hkey, hsome⟩
    obtain ⟨v, hlookup⟩ := Option.isSome_iff_exists.1 hsome
    have hv : v ∈ as.filterMap (valueFor? lookup k) :=
      List.mem_filterMap.2 ⟨a, ha, valueFor?_eq_some_iff.2 ⟨hkey, hlookup⟩⟩
    exact List.ne_nil_of_mem hv

/-! ## Two channels -/

/-- The initial context depends on the values of the copied headers only. -/
theorem initialContext_congr
    {c c' : Config} {lookup lookup' : HeaderLookup} (hheaders : c'.copiedHeaders = c.copiedHeaders)
    (hvalues : ∀ a ∈ c.copiedHeaders, lookup' a.name = lookup a.name) :
    initialContext c' lookup' = initialContext c lookup := by
  rw [initialContext_eq_foldl, initialContext_eq_foldl, hheaders]
  apply List.foldl_ext
  intro ctx a ha
  rw [copy, copy, hvalues a ha]

/-- Beginning a request succeeds for all headers, and copies them exactly.  A key is present exactly
if one of the copied headers for it has a value, and the last one of these gives the value.  The id
in the context is the one that is returned: a segment, behind the inbound id if the trace header
carries an acceptable one.  Two requests with the same trace header have the same id, whatever is
copied; two requests with the same copied headers have the same auxiliary fields, whatever the trace
header is. -/
theorem begin_copies_headers
    {H : Type → Type} {σ : Type} (h : Handler H σ) (c : Config) (lookup : HeaderLookup)
    (w : World σ) :
    ∃ r f, (begin c lookup).run h w = (some (.value (.ok r)), { w with facilities := f }) ∧
      r.context.get? = some r.traceId ∧
      c.request.Extends w.facilities.source ((lookup c.headerName).bind TraceId.ofInbound?)
        r.traceId ∧
      (c.request.segment w.facilities.source).utf8ByteSize = c.request.length ∧
      (∀ k, (r.context.auxiliary.get? k).isSome = true ↔
        ∃ a ∈ c.copiedHeaders, a.key = k ∧ (lookup a.name).isSome = true) ∧
      (∀ k v, r.context.auxiliary.get? k = some v ↔
        ∃ before a after, c.copiedHeaders = before ++ a :: after ∧
          (a.key = k ∧ lookup a.name = some v) ∧
          ∀ b ∈ after, b.key = k → lookup b.name = none) ∧
      ∀ (c' : Config) (lookup' : HeaderLookup) (w' : World σ),
        ∃ r' f', (begin c' lookup').run h w' =
            (some (.value (.ok r')), { w' with facilities := f' }) ∧
          (c'.request = c.request → lookup' c'.headerName = lookup c.headerName →
            w'.facilities.source = w.facilities.source → r'.traceId = r.traceId) ∧
          (c'.copiedHeaders = c.copiedHeaders →
            (∀ a ∈ c.copiedHeaders, lookup' a.name = lookup a.name) →
            r'.context.auxiliary = r.context.auxiliary) := by
  obtain ⟨id, f, hbegin, hid, -, hblank, -⟩ := run_begin h c lookup w
  have hget : (Context.mk (some id) (initialContext c lookup).auxiliary).get? = some id :=
    (Context.get?_eq_some_iff _ _).2 ⟨rfl, hblank⟩
  refine ⟨_, f, hbegin, hget, hid, c.request.utf8ByteSize_segment _, ?_, ?_, ?_⟩
  · intro k
    rw [get?_auxiliary_initialContext]
    exact isSome_getLast?_valueFor?_iff
  · intro k v
    rw [get?_auxiliary_initialContext]
    exact getLast?_valueFor?_eq_some_iff
  · intro c' lookup' w'
    obtain ⟨id', f', hbegin', hid', -⟩ := run_begin h c' lookup' w'
    refine ⟨_, f', hbegin', ?_, ?_⟩
    · intro hscheme hinbound hsource
      rw [hscheme, hinbound, hsource] at hid'
      exact (hid'.eq_iff hid).2 ⟨rfl, rfl⟩
    · intro hheaders hvalues
      have hsame : (initialContext c' lookup').auxiliary = (initialContext c lookup).auxiliary :=
        congrArg Context.auxiliary (initialContext_congr hheaders hvalues)
      exact hsame

/-- Three headers for one key, of which the last one has no value, and one for another key.  The
second value counts, and the id goes on from the trace header whatever is copied. -/
theorem begin_copies_headers_of_repeated_key :
    let h := LocalHost.nobody.handler
    let w : World Unit := ⟨none, .fresh ⟨fun n => ⟨n % 63, Nat.mod_lt n (by decide)⟩, 0⟩, ()⟩
    let c : Config := { Config.standard with
      copiedHeaders := [⟨"tenant", "x-tenant"⟩, ⟨"user", "x-user"⟩, ⟨"tenant", "x-org"⟩,
        ⟨"tenant", "x-account"⟩]
      copiedHeaders_valid := by decide +kernel }
    let lookup : HeaderLookup := fun n =>
      [("x-trace-id", "root"), ("x-tenant", "a"), ("x-org", "b")].lookup n
    let bare : HeaderLookup := fun n => [("x-trace-id", "root")].lookup n
    ∃ r r' f f', (begin c lookup).run h w = (some (.value (.ok r)), { w with facilities := f }) ∧
      (begin .standard bare).run h w = (some (.value (.ok r')), { w with facilities := f' }) ∧
      r.context.auxiliary.get? "tenant" = some "b" ∧
      (r.context.auxiliary.get? "user").isSome = false ∧
      c.request = Config.standard.request ∧ r'.traceId = r.traceId := by
  intro h w c lookup bare
  obtain ⟨r, f, hbegin, -, -, -, hkeys, hvalues, hothers⟩ := begin_copies_headers h c lookup w
  obtain ⟨r', f', hbegin', hsame, -⟩ := hothers .standard bare w
  have hinbound : bare Config.standard.headerName = lookup c.headerName := by decide +kernel
  refine ⟨r, r', f, f', hbegin, hbegin', ?_, ?_, rfl, hsame rfl hinbound rfl⟩
  · rw [hvalues]
    refine ⟨[⟨"tenant", "x-tenant"⟩, ⟨"user", "x-user"⟩], ⟨"tenant", "x-org"⟩,
      [⟨"tenant", "x-account"⟩], rfl, ⟨rfl, by decide +kernel⟩, ?_⟩
    intro b hb _
    rw [List.mem_singleton.1 hb]
    decide +kernel
  · rw [Bool.eq_false_iff, ne_eq, hkeys]
    decide +kernel

end Arrival
end TraceLineage
