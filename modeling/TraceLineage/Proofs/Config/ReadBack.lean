import TraceLineage.Proofs.Config.Rules
import TraceLineage.Settings.Decode

/-!
# Reading a configuration back

What can be read from a configuration makes up settings again.  They violate no rule, and loading
them yields the same configuration, so that a configuration says all that there is to say about it
and no check that it has passed would fail later.
-/

namespace TraceLineage

namespace Scheme

variable {i : Invoker}

def tag? (g : Scheme i) : Option String :=
  if g.tag = "" then none else some g.tag

/-- The parts that can be read from a scheme. -/
def toParts (g : Scheme i) : SchemeParts where
  tag := g.tag?
  delimiter := g.delimiter?.toOption
  length := some g.length

/-- What the parts of a scheme satisfy. -/
structure Regular (g : Scheme i) : Prop where
  min_le_length : i.minLength ≤ g.length
  length_le_max : g.length ≤ i.maxLength
  tag_spec : ∀ t, g.tag? = some t →
    t ≠ "" ∧ Text.allVisible t = true ∧ t.utf8ByteSize < g.length
  exists_delimiter : (∃ d, g.delimiter? = .ok d) ↔ i.isRoot = false
  delimiter_visible : ∀ d, g.delimiter? = .ok d → Text.isVisible d = true

theorem getD_tag?
    (g : Scheme i) :
    g.tag?.getD "" = g.tag := by
  rw [tag?]
  split
  next hempty => exact hempty.symm
  next => rfl

theorem toOption_delimiter?
    (g : Scheme i) :
    g.delimiter?.toOption = g.delimiter := by
  rw [delimiter?]
  cases g.delimiter <;> rfl

theorem delimiter?_eq_ok
    (g : Scheme i) (d : Char) :
    g.delimiter? = .ok d ↔ g.delimiter = some d := by
  rw [delimiter?]
  cases g.delimiter <;> simp

theorem regular
    (g : Scheme i) :
    g.Regular := by
  refine ⟨g.min_le_length, g.length_le_max, ?_, ?_, ?_⟩
  · intro t ht
    rw [tag?, Option.ite_none_left_eq_some, Option.some.injEq] at ht
    obtain ⟨hne, rfl⟩ := ht
    exact ⟨hne, g.tag_visible, g.tag_lt_length⟩
  · simp only [delimiter?_eq_ok, ← Option.isSome_iff_exists, g.delimiter_isSome,
      Bool.not_eq_true']
  · intro d hd
    have hvisible := g.delimiter_visible
    rw [(g.delimiter?_eq_ok d).1 hd] at hvisible
    exact hvisible

theorem chooseDelimiter_of_valid
    {d : Option Char} (hsome : d.isSome = !i.isRoot) (hvisible : d.all Text.isVisible = true) :
    chooseDelimiter i d = .ok ⟨d, hsome, hvisible⟩ := by
  by_cases hroot : i.isRoot = true
  · cases d with
    | some d => simp [hroot] at hsome
    | none => simp [chooseDelimiter, hroot]
  · cases d with
    | none => simp [hroot] at hsome
    | some d =>
      have hd : Text.isVisible d = true := hvisible
      simp [chooseDelimiter, hroot, hd]

theorem build_toParts
    (g : Scheme i) :
    build i g.toParts = .ok g := by
  have hlength : i.minLength ≤ g.length ∧ g.length ≤ i.maxLength :=
    ⟨g.min_le_length, g.length_le_max⟩
  have hdelimiter := chooseDelimiter_of_valid g.delimiter_isSome g.delimiter_visible
  simp only [build, toParts, getD_tag?, toOption_delimiter?, Option.getD_some, hlength,
    g.tag_visible, g.tag_lt_length, hdelimiter, dif_pos, and_self]

end Scheme

namespace Config

/-- The settings that can be read from a configuration. -/
def toSettings (c : Config) : Settings where
  headerName := c.headerName
  copiedHeaders := c.copiedHeaders
  request := c.request.toParts
  job := c.job.toParts
  thread := c.thread.toParts

/-- The configurations that can be obtained: from the standard one or from loaded settings, by any
changes. -/
inductive Reachable : Config → Prop where
  | standard : Reachable standard
  | load {s : Settings} {f : Facilities} {c : Config} (hc : (load s f).1 = .ok c) : Reachable c
  | loadToml {text : String} {f : Facilities} {diagnose : String → Option String} {c : Config}
    (hc : (loadToml text f diagnose).1 = .ok c) : Reachable c
  | setStandard {c : Config} (i : Invoker) (hc : Reachable c) :
      Reachable (c.setScheme (.standard i))
  | setBuilt {c : Config} {i : Invoker} {parts : SchemeParts} {g : Scheme i} (hc : Reachable c)
      (hg : Scheme.build i parts = .ok g) : Reachable (c.setScheme g)
  | setHeaderName {c d : Config} {name : String} (hc : Reachable c)
      (hd : c.setHeaderName name = .ok d) : Reachable d
  | addCopiedHeader {c d : Config} {a : CopiedHeader} (hc : Reachable c)
      (hd : c.addCopiedHeader a = .ok d) : Reachable d

theorem scheme_setScheme
    (c : Config) {i : Invoker} (g : Scheme i) :
    (c.setScheme g).scheme i = g ∧
      ∀ j, j ≠ i → (c.setScheme g).scheme j = c.scheme j := by
  cases i <;> refine ⟨rfl, fun j hj => ?_⟩ <;> cases j <;> first | rfl | exact absurd rfl hj

theorem checkCopiedHeaders_of_valid
    {as : List CopiedHeader} (h : as.all CopiedHeader.isValid = true) :
    checkCopiedHeaders as = .ok () := by
  induction as with
  | nil => rfl
  | cons a as ih =>
    rw [List.all_cons, Bool.and_eq_true] at h
    rw [checkCopiedHeaders, (CopiedHeader.check_eq_ok_iff a).2 h.1]
    exact ih h.2

/-- A configuration is loaded again from what can be read from it. -/
theorem ofSettings_toSettings
    (c : Config) :
    ofSettings c.toSettings = .ok c := by
  have hname : Text.isToken c.toSettings.headerName = true := c.headerName_valid
  have hheaders : checkCopiedHeaders c.toSettings.copiedHeaders = .ok () :=
    checkCopiedHeaders_of_valid c.copiedHeaders_valid
  rw [ofSettings_of_headers hname hheaders]
  simp only [toSettings, Scheme.build_toParts]
  rfl

/-- Every configuration can be obtained. -/
theorem reachable
    (c : Config) :
    c.Reachable := by
  have hload : (load c.toSettings (.fresh (.seeded 0))).1 = .ok c := by
    rw [load, ofSettings_toSettings]
  exact .load hload

/-- Configurations are fixed points of the checks.  Whatever has been loaded, replaced or appended
to obtain a configuration, what can be read from it violates no rule and is loaded as the same
configuration again.  Each scheme has its place, in which only a scheme of the same invoker is put,
and satisfies the rules of that invoker, the header names are tokens and the keys are not blank. -/
theorem fixed_point
    (c : Config) :
    c.Reachable ∧ c.toSettings.faults = [] ∧
      (∀ f, load c.toSettings f = (.ok c, f.emit ⟨.debug, "trace configuration loaded",
        [("header", .text c.headerName),
          ("additional_headers", .number c.copiedHeaders.length)]⟩)) ∧
      (∀ i, (c.scheme i).Regular) ∧
      (∀ i (g : Scheme i), (c.setScheme g).scheme i = g ∧
        ∀ j, j ≠ i → (c.setScheme g).scheme j = c.scheme j) ∧
      Text.isToken c.headerName = true ∧
      ∀ a ∈ c.copiedHeaders, Text.isBlank a.key = false ∧ Text.isToken a.name = true := by
  have hfaults : c.toSettings.faults = [] :=
    (ofSettings_reports c.toSettings).ok_iff.1 ⟨c, c.ofSettings_toSettings⟩
  have hload : ∀ f, load c.toSettings f = (.ok c, f.emit c.loadedEvent) := by
    intro f
    rw [load, ofSettings_toSettings]
  have hcopied : ∀ a ∈ c.copiedHeaders,
      Text.isBlank a.key = false ∧ Text.isToken a.name = true := by
    intro a ha
    have hvalid := List.all_eq_true.1 c.copiedHeaders_valid a ha
    rwa [CopiedHeader.isValid, Bool.and_eq_true, Bool.not_eq_true'] at hvalid
  exact ⟨c.reachable, hfaults, hload, fun i => (c.scheme i).regular,
    fun _ g => c.scheme_setScheme g, c.headerName_valid, hcopied⟩

end Config
end TraceLineage
