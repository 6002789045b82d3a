import TraceLineage.Config

/-!
# The rules of a configuration

All the rules that settings violate, in the order in which they are checked.  A check reports the
first of them and succeeds if there is none.
-/

namespace TraceLineage

/-- The fault of a rule that does not hold. -/
def violation (rule : Prop) [Decidable rule] (fault : ConfigFault) : List ConfigFault :=
  if rule then [] else [fault]

/-- The rules that the parts of a scheme violate, in the order length, characters of the tag, length
of the tag, delimiter. -/
def SchemeParts.faults (s : SchemeParts) (i : Invoker) : List ConfigFault :=
  let length := s.length.getD i.defaultLength
  let tag := s.tag.getD ""
  violation (i.minLength ≤ length ∧ length ≤ i.maxLength) (.lengthOutOfRange i length) ++
    violation (Text.allVisible tag = true) (.tagNotVisible i tag) ++
    violation (tag.utf8ByteSize < length) (.tagTooLong i tag length) ++
    s.delimiter.toList.flatMap fun d =>
      if i.isRoot = true then [.delimiterOfRoot i d]
      else violation (Text.isVisible d = true) (.delimiterNotVisible i d)

/-- The rules that a copied header violates, the key before the name. -/
def CopiedHeader.faults (a : CopiedHeader) : List ConfigFault :=
  violation (Text.isBlank a.key = false) (.blankKey a.name) ++
    violation (Text.isToken a.name = true) (.headerName a.name)

/-- The rules that settings violate, in the order header name, copied headers from left to right,
request, job, thread. -/
def Settings.faults (s : Settings) : List ConfigFault :=
  violation (Text.isToken s.headerName = true) (.headerName s.headerName) ++
    s.copiedHeaders.flatMap CopiedHeader.faults ++
    (s.request.faults .request ++ s.job.faults .job ++ s.thread.faults .thread)

/-- A check reports the first of the violated rules and succeeds if there is none. -/
def Reports {α : Type} (faults : List ConfigFault) : Except ConfigFault α → Prop
  | .ok _ => faults = []
  | .error e => faults.head? = some e

namespace Reports

variable {α β : Type} {l m : List ConfigFault}

theorem error_iff
    {x : Except ConfigFault α} (hx : Reports l x) (e : ConfigFault) :
    x = .error e ↔ l.head? = some e := by
  cases x with
  | ok a =>
    have hl : l = [] := hx
    simp [hl]
  | error d =>
    have hd : l.head? = some d := hx
    simp [hd]

theorem ok_iff
    {x : Except ConfigFault α} (hx : Reports l x) :
    (∃ a, x = .ok a) ↔ l = [] := by
  cases x with
  | ok a =>
    have hl : l = [] := hx
    simp [hl]
  | error d =>
    have hd : l.head? = some d := hx
    have hne : l ≠ [] := by
      intro hnil
      rw [hnil, List.head?_nil] at hd
      cases hd
    simp [hne]

/-- Rules that are checked later do not change what is reported. -/
theorem of_error
    {e : ConfigFault} (hx : Reports l (.error e : Except ConfigFault α)) :
    Reports (l ++ m) (.error e : Except ConfigFault β) := by
  have he : l.head? = some e := hx
  change (l ++ m).head? = some e
  rw [List.head?_append, he, Option.some_or]

theorem bind
    {x : Except ConfigFault α} {f : α → Except ConfigFault β}
    (hx : Reports l x) (hf : ∀ a, Reports m (f a)) :
    Reports (l ++ m) (x >>= f) := by
  cases x with
  | ok a =>
    have hl : l = [] := hx
    rw [hl]
    exact hf a
  | error d => exact hx.of_error

theorem rule
    {p : Prop} [Decidable p] {e : ConfigFault} {f : p → Except ConfigFault α}
    (hf : ∀ h, Reports l (f h)) :
    Reports (violation p e ++ l) (if h : p then f h else .error e) := by
  by_cases h : p
  · rw [dif_pos h, violation, if_pos h]
    exact hf h
  · rw [dif_neg h, violation, if_neg h]
    rfl

end Reports

theorem Scheme.chooseDelimiter_reports
    (i : Invoker) (requested : Option Char) :
    Reports (requested.toList.flatMap fun d =>
        if i.isRoot = true then [.delimiterOfRoot i d]
        else violation (Text.isVisible d = true) (.delimiterNotVisible i d))
      (chooseDelimiter i requested) := by
  by_cases hroot : i.isRoot = true
  · cases requested with
    | none =>
      simp only [chooseDelimiter, hroot, dif_pos]
      rfl
    | some d =>
      simp only [chooseDelimiter, hroot, dif_pos, if_pos]
      rfl
  · cases requested with
    | none =>
      simp only [chooseDelimiter, hroot, Option.getD_none]
      rfl
    | some d =>
      simp only [chooseDelimiter, hroot, Option.getD_some, Option.toList_some, List.flatMap_cons,
        List.flatMap_nil]
      exact Reports.rule fun _ => rfl

/-- The scheme of some parts is refused for the first rule that they violate. -/
theorem Scheme.build_reports
    (i : Invoker) (s : SchemeParts) :
    Reports (s.faults i) (build i s) := by
  simp only [SchemeParts.faults, List.append_assoc]
  refine Reports.rule fun _ => Reports.rule fun _ => Reports.rule fun _ => ?_
  have hdelimiter := chooseDelimiter_reports i s.delimiter
  cases hd : chooseDelimiter i s.delimiter with
  | ok d =>
    rw [hd] at hdelimiter
    exact hdelimiter
  | error e =>
    rw [hd] at hdelimiter
    exact hdelimiter

/-- A copied header is refused for the first rule that it violates. -/
theorem CopiedHeader.check_reports
    (a : CopiedHeader) :
    Reports a.faults a.check := by
  have hname : Reports (violation (Text.isToken a.name = true) (.headerName a.name))
      (checkHeaderName a.name) := by
    by_cases htoken : Text.isToken a.name = true
    · rw [checkHeaderName, if_pos htoken, violation, if_pos htoken]
      rfl
    · rw [checkHeaderName, if_neg htoken, violation, if_neg htoken]
      rfl
  cases hblank : Text.isBlank a.key with
  | false =>
    simp only [faults, check, hblank, violation, if_pos, List.nil_append]
    exact hname
  | true =>
    simp only [faults, check, hblank, violation, if_pos]
    rfl

namespace Config

theorem checkCopiedHeaders_reports
    (as : List CopiedHeader) :
    Reports (as.flatMap CopiedHeader.faults) (checkCopiedHeaders as) := by
  induction as with
  | nil => rfl
  | cons a as ih =>
    rw [List.flatMap_cons]
    exact a.check_reports.bind fun _ => ih

/-- Behind the header names only the schemes are left to build. -/
theorem ofSettings_of_headers
    {s : Settings} (hname : Text.isToken s.headerName = true)
    (hheaders : checkCopiedHeaders s.copiedHeaders = .ok ()) :
    ofSettings s = (do
      let request ← Scheme.build .request s.request
      let job ← Scheme.build .job s.job
      let thread ← Scheme.build .thread s.thread
      .ok {
        headerName := s.headerName
        copiedHeaders := s.copiedHeaders
        request, job, thread
        headerName_valid := hname
        copiedHeaders_valid := all_isValid_of_checkCopiedHeaders hheaders }) := by
  rw [ofSettings, dif_pos hname]
  split
  next e he =>
    rw [hheaders] at he
    cases he
  next => rfl

theorem ofSettings_of_error
    {s : Settings} {e : ConfigFault} (hname : Text.isToken s.headerName = true)
    (hheaders : checkCopiedHeaders s.copiedHeaders = .error e) :
    ofSettings s = .error e := by
  rw [ofSettings, dif_pos hname]
  split
  next d hd =>
    rw [hheaders, Except.error.injEq] at hd
    rw [hd]
  next hok =>
    rw [hheaders] at hok
    cases hok

/-- Settings are refused for the first rule that they violate. -/
theorem ofSettings_reports
    (s : Settings) :
    Reports s.faults (ofSettings s) := by
  have hheaders := checkCopiedHeaders_reports s.copiedHeaders
  simp only [Settings.faults, List.append_assoc]
  by_cases hname : Text.isToken s.headerName = true
  · rw [violation, if_pos hname, List.nil_append]
    cases hcheck : checkCopiedHeaders s.copiedHeaders with
    | error e =>
      rw [hcheck] at hheaders
      rw [ofSettings_of_error hname hcheck]
      exact hheaders.of_error
    | ok _ =>
      rw [hcheck] at hheaders
      have hvalid : s.copiedHeaders.flatMap CopiedHeader.faults = [] := hheaders
      rw [ofSettings_of_headers hname hcheck, hvalid, List.nil_append]
      refine (Scheme.build_reports .request s.request).bind fun request => ?_
      refine (Scheme.build_reports .job s.job).bind fun job => ?_
      rw [← List.append_nil (s.thread.faults .thread)]
      exact (Scheme.build_reports .thread s.thread).bind fun thread => rfl
  · rw [violation, if_neg hname, ofSettings, dif_neg hname]
    rfl

end Config
end TraceLineage
