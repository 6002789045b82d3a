import TraceLineage.Facilities
import TraceLineage.Settings

/-!
# Configurations

A configuration that satisfies every rule.  It is obtained from settings, all at once, or from the
standard configuration, step by step; both ways apply the same checks.
-/

namespace TraceLineage

/-- A valid configuration: the header that carries trace ids, the headers to copy, in order, and how
the ids of each invoker are made. -/
structure Config where
  headerName : String
  copiedHeaders : List CopiedHeader
  request : Scheme .request
  job : Scheme .job
  thread : Scheme .thread
  headerName_valid : Text.isToken headerName = true
  copiedHeaders_valid : copiedHeaders.all CopiedHeader.isValid = true
  deriving DecidableEq

namespace Config

/-- How the ids of an invoker are made. -/
def scheme (c : Config) : (i : Invoker) → Scheme i
  | .request => c.request
  | .job => c.job
  | .thread => c.thread

/-- The standard configuration. -/
def standard : Config where
  headerName := defaultHeaderName
  copiedHeaders := []
  request := .standard .request
  job := .standard .job
  thread := .standard .thread
  headerName_valid := by decide +kernel
  copiedHeaders_valid := rfl

def setScheme (c : Config) : {i : Invoker} → Scheme i → Config
  | .request, g => { c with request := g }
  | .job, g => { c with job := g }
  | .thread, g => { c with thread := g }

/-- Replaces the header that carries trace ids. -/
def setHeaderName (c : Config) (name : String) : Except ConfigFault Config :=
  if h : Text.isToken name = true then
    .ok { c with headerName := name, headerName_valid := h }
  else .error (.headerName name)

def addCopiedHeader (c : Config) (a : CopiedHeader) : Except ConfigFault Config :=
  match h : a.check with
  | .error e => .error e
  | .ok () => .ok { c with
      copiedHeaders := c.copiedHeaders ++ [a]
      copiedHeaders_valid := by
        simp [c.copiedHeaders_valid, (CopiedHeader.check_eq_ok_iff a).1 h] }

/-- The rules on a list of copied headers, left to right. -/
def checkCopiedHeaders : List CopiedHeader → Except ConfigFault Unit
  | [] => .ok ()
  | a :: as => do
    a.check
    checkCopiedHeaders as

theorem all_isValid_of_checkCopiedHeaders
    {as : List CopiedHeader} (h : checkCopiedHeaders as = .ok ()) :
    as.all CopiedHeader.isValid = true := by
  induction as with
  | nil => rfl
  | cons a as ih =>
    cases hc : a.check with
    | error e => simp [checkCopiedHeaders, hc, bind, Except.bind] at h
    | ok u =>
      simp only [checkCopiedHeaders, hc, bind, Except.bind] at h
      simp [(CopiedHeader.check_eq_ok_iff a).1 hc, ih h]

/-- The configuration of some settings, or the first violated rule in the order header name, copied
headers, request, job, thread. -/
def ofSettings (s : Settings) : Except ConfigFault Config :=
  if hn : Text.isToken s.headerName = true then
    match ha : checkCopiedHeaders s.copiedHeaders with
    | .error e => .error e
    | .ok () => do
      let request ← Scheme.build .request s.request
      let job ← Scheme.build .job s.job
      let thread ← Scheme.build .thread s.thread
      .ok {
        headerName := s.headerName
        copiedHeaders := s.copiedHeaders
        request, job, thread
        headerName_valid := hn
        copiedHeaders_valid := all_isValid_of_checkCopiedHeaders ha }
  else .error (.headerName s.headerName)

/-- The event that reports a loaded configuration. -/
def loadedEvent (c : Config) : Event where
  level := .debug
  message := "trace configuration loaded"
  fields := [("header", .text c.headerName),
    ("additional_headers", .number c.copiedHeaders.length)]

/-- Checks settings and reports success in the log. -/
def load (s : Settings) (f : Facilities) : Except Fault Config × Facilities :=
  match ofSettings s with
  | .ok c => (.ok c, f.emit c.loadedEvent)
  | .error e => (.error (.configuration e), f)

theorem ofSettings_default :
    ofSettings {} = .ok standard := by
  have hn : Text.isToken defaultHeaderName = true := standard.headerName_valid
  simp only [ofSettings, hn, dif_pos, Scheme.build_default]
  rfl

end Config
end TraceLineage
