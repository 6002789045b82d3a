import TraceLineage.Config.Change
import TraceLineage.Proofs.Config.Rules

/-!
# A configuration all at once and step by step

Settings can be loaded as a whole, or each of them can be put into the standard configuration with
a change of its own.  Both ways accept the same settings, for the same configuration, and refuse the
others for the same rule.
-/

namespace TraceLineage

/-- The changes that put settings into a configuration, one after the other. -/
def Settings.steps (s : Settings) : List Change :=
  .headerName s.headerName :: (s.copiedHeaders.map .copiedHeader ++
    [.scheme .request s.request, .scheme .job s.job, .scheme .thread s.thread])

namespace Config

/-- The configuration after several changes, or the rule that the first refused one violates. -/
def changeAll (c : Config) (chs : List Change) : Except ConfigFault Config :=
  chs.foldlM change c

theorem changeAll_cons
    (c : Config) (ch : Change) (chs : List Change) :
    c.changeAll (ch :: chs) = (c.change ch >>= fun d => d.changeAll chs) :=
  List.foldlM_cons

theorem changeAll_append
    (c : Config) (chs later : List Change) :
    c.changeAll (chs ++ later) = (c.changeAll chs >>= fun d => d.changeAll later) :=
  List.foldlM_append

/-- Appends headers that satisfy the rules. -/
def appendCopiedHeaders (c : Config) (as : List CopiedHeader)
    (h : as.all CopiedHeader.isValid = true) : Config :=
  { c with
    copiedHeaders := c.copiedHeaders ++ as
    copiedHeaders_valid := by rw [List.all_append, c.copiedHeaders_valid, h]; rfl }

theorem appendCopiedHeaders_nil
    (c : Config) (h : [].all CopiedHeader.isValid = true) :
    c.appendCopiedHeaders [] h = c := by
  simp [appendCopiedHeaders]

theorem appendCopiedHeaders_cons
    (c : Config) (a : CopiedHeader) (as : List CopiedHeader)
    (ha : [a].all CopiedHeader.isValid = true) (has : as.all CopiedHeader.isValid = true)
    (h : (a :: as).all CopiedHeader.isValid = true) :
    (c.appendCopiedHeaders [a] ha).appendCopiedHeaders as has =
      c.appendCopiedHeaders (a :: as) h := by
  simp [appendCopiedHeaders]

theorem addCopiedHeader_of_ok
    (c : Config) {a : CopiedHeader} (h : a.check = .ok ()) :
    ∃ ha, c.addCopiedHeader a = .ok (c.appendCopiedHeaders [a] ha) := by
  have ha : [a].all CopiedHeader.isValid = true := by
    rw [List.all_cons, (CopiedHeader.check_eq_ok_iff a).1 h]
    rfl
  refine ⟨ha, ?_⟩
  rw [addCopiedHeader]
  split
  next e he =>
    rw [h] at he
    cases he
  next => rfl

theorem addCopiedHeader_of_error
    (c : Config) {a : CopiedHeader} {e : ConfigFault} (h : a.check = .error e) :
    c.addCopiedHeader a = .error e := by
  rw [addCopiedHeader]
  split
  next d hd =>
    rw [h, Except.error.injEq] at hd
    rw [hd]
  next hok =>
    rw [h] at hok
    cases hok

/-- Headers that are appended one after the other are checked from left to right and kept in their
order. -/
theorem changeAll_copiedHeaders
    (c : Config) (as : List CopiedHeader) :
    (∃ h, checkCopiedHeaders as = .ok () ∧
        c.changeAll (as.map .copiedHeader) = .ok (c.appendCopiedHeaders as h)) ∨
      ∃ e, checkCopiedHeaders as = .error e ∧
        c.changeAll (as.map .copiedHeader) = .error e := by
  induction as generalizing c with
  | nil =>
    have hnil : ([] : List CopiedHeader).all CopiedHeader.isValid = true := rfl
    refine .inl ⟨hnil, rfl, ?_⟩
    rw [c.appendCopiedHeaders_nil hnil]
    rfl
  | cons a as ih =>
    rw [List.map_cons, changeAll_cons, change, checkCopiedHeaders]
    cases ha : a.check with
    | error e =>
      rw [addCopiedHeader_of_error c ha]
      exact .inr ⟨e, rfl, rfl⟩
    | ok _ =>
      obtain ⟨hvalid, hadd⟩ := addCopiedHeader_of_ok c ha
      rw [hadd]
      rcases ih (c.appendCopiedHeaders [a] hvalid) with ⟨h, hcheck, hall⟩ | ⟨e, hcheck, hall⟩
      · have hcons : (a :: as).all CopiedHeader.isValid = true := by
          rw [List.all_cons, (CopiedHeader.check_eq_ok_iff a).1 ha, h]
          rfl
        refine .inl ⟨hcons, hcheck, ?_⟩
        rw [← appendCopiedHeaders_cons c a as hvalid h hcons]
        exact hall
      · exact .inr ⟨e, hcheck, hall⟩

/-- Schemes that are put in one after the other replace the earlier ones together. -/
theorem changeAll_schemes
    (c : Config) (s : Settings) :
    c.changeAll [.scheme .request s.request, .scheme .job s.job, .scheme .thread s.thread] = (do
      let request ← Scheme.build .request s.request
      let job ← Scheme.build .job s.job
      let thread ← Scheme.build .thread s.thread
      .ok { c with request := request, job := job, thread := thread }) := by
  rw [changeAll_cons, change]
  cases Scheme.build .request s.request with
  | error e => rfl
  | ok request =>
    change (c.setScheme request).changeAll _ = _
    rw [changeAll_cons, change]
    cases Scheme.build .job s.job with
    | error e => rfl
    | ok job =>
      change ((c.setScheme request).setScheme job).changeAll _ = _
      rw [changeAll_cons, change]
      cases Scheme.build .thread s.thread with
      | error e => rfl
      | ok thread => rfl

/-- The steps of some settings reach the configuration that all the settings together describe. -/
theorem changeAll_steps_eq_ofSettings
    (s : Settings) :
    standard.changeAll s.steps = ofSettings s := by
  rw [Settings.steps, changeAll_cons, change, setHeaderName]
  by_cases hname : Text.isToken s.headerName = true
  · rw [dif_pos hname]
    let named : Config := { standard with headerName := s.headerName, headerName_valid := hname }
    change named.changeAll _ = _
    rw [changeAll_append]
    rcases named.changeAll_copiedHeaders s.copiedHeaders with
      ⟨h, hcheck, hall⟩ | ⟨e, hcheck, hall⟩
    · rw [hall, ofSettings_of_headers hname hcheck]
      exact (named.appendCopiedHeaders s.copiedHeaders h).changeAll_schemes s
    · rw [hall, ofSettings_of_error hname hcheck]
      rfl
  · rw [dif_neg hname, ofSettings, dif_neg hname]
    rfl

/-- Loading settings at once and putting them into the standard configuration step by step come to
the same: the same configuration if the settings violate no rule, and otherwise the same fault, that
of the first rule that they violate. -/
theorem changeAll_steps
    (s : Settings) :
    standard.changeAll s.steps = ofSettings s ∧
      (∀ f, (load s f).1 = (standard.changeAll s.steps).mapError .configuration) ∧
      ((∃ c, standard.changeAll s.steps = .ok c) ↔ s.faults = []) ∧
      (∀ e, standard.changeAll s.steps = .error e ↔ s.faults.head? = some e) := by
  have hload : ∀ f, (load s f).1 = (ofSettings s).mapError .configuration := by
    intro f
    rw [load]
    cases ofSettings s with
    | ok c => rfl
    | error e => rfl
  rw [changeAll_steps_eq_ofSettings]
  exact ⟨rfl, hload, (ofSettings_reports s).ok_iff, (ofSettings_reports s).error_iff⟩

end Config
end TraceLineage
