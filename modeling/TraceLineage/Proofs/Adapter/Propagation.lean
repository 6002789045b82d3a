import Mathlib.Data.List.Chain
import TraceLineage.Proofs.Adapter.Arrival

/-!
# Ids that pass from service to service

A request that one service resolves is often the reason for a request to another, which finds the
id in its trace header.  Every id that a service makes is a value that the next one can read, so
that a chain breaks in one place only: an id that has grown beyond the limit for inbound values is
discarded as a whole, and the next service starts a new chain.
-/

namespace TraceLineage

namespace Text

theorem trim_of_allVisible
    {s : String} (hs : allVisible s = true) :
    trim s = s := by
  rw [allVisible, List.all_eq_true] at hs
  have hkept : ∀ cs : List Char, (∀ c ∈ cs, isVisible c = true) →
      cs.dropWhile isWhiteSpace = cs := by
    intro cs hcs
    cases cs with
    | nil => rfl
    | cons c cs =>
      rw [List.dropWhile_cons, isWhiteSpace_of_isVisible (hcs c List.mem_cons_self)]
      rfl
  rw [trim, trimChars, hkept _ hs, hkept, List.reverse_reverse, String.ofList_toList]
  intro c hc
  exact hs c (List.mem_reverse.1 hc)

end Text

namespace TraceId

theorem ofInbound?_text
    {id : TraceId} (hvisible : Text.allVisible id.text = true) (hblank : id.isBlank = false) :
    ofInbound? id.text =
      if id.text.utf8ByteSize ≤ maxInboundLength then some id else none := by
  have hne : id.text ≠ "" := by
    intro hempty
    rw [isBlank, hempty, Text.isBlank_empty] at hblank
    cases hblank
  simp only [ofInbound?, Text.trim_of_allVisible hvisible, hvisible, and_true, ne_eq, hne,
    not_false_eq_true, true_and]

theorem length_of_ofInbound?
    {raw : String} {id : TraceId} (hid : ofInbound? raw = some id) :
    id.text.utf8ByteSize ≤ maxInboundLength := by
  simp only [ofInbound?, Option.ite_none_right_eq_some, Option.some.injEq] at hid
  obtain ⟨⟨_, hlength, _⟩, rfl⟩ := hid
  exact hlength

end TraceId

/-- A service that a request reaches: its configuration, the headers of the request, given the value
of the trace header, and the state in which the request finds the service. -/
structure Hop (σ : Type) where
  config : Config
  headers : Option String → HeaderLookup
  world : World σ
  headers_trace : ∀ inbound, headers inbound config.headerName = inbound

/-- What has come of a request at a service: the value of its trace header, the context and the id
that it got, and the state behind the resolution. -/
structure Visit (σ : Type) where
  hop : Hop σ
  inbound : Option String
  arrival : Arrival
  behind : World σ

/-- The id that a service gives to a request. -/
abbrev Visit.id {σ : Type} (v : Visit σ) : TraceId :=
  v.arrival.traceId

namespace Hop

variable {H : Type → Type} {σ : Type}

/-- The segment that a service has ready for the next request. -/
def segment (hop : Hop σ) : String :=
  hop.config.request.segment hop.world.facilities.source

/-- Begins the request with a given value of the trace header, if that succeeds. -/
def visit (h : Handler H σ) (hop : Hop σ) (inbound : Option String) : Option (Visit σ) :=
  match (Arrival.begin hop.config (hop.headers inbound)).run h hop.world with
  | (some (.value (.ok a)), v) => some ⟨hop, inbound, a, v⟩
  | _ => none

end Hop

/-- A request that passes through services, each of which gets the id of the one before in its trace
header. -/
def journey {H : Type → Type} {σ : Type} (h : Handler H σ) :
    Option String → List (Hop σ) → Option (List (Visit σ))
  | _, [] => some []
  | inbound, hop :: hops => do
    let v ← hop.visit h inbound
    let vs ← journey h (some v.id.text) hops
    return v :: vs

namespace Visit

variable {H : Type → Type} {σ : Type} {h : Handler H σ}

/-- The events that a visit adds to the log, in the spans around the service. -/
def Writes (v : Visit σ) (es : List Event) : Prop :=
  v.behind.facilities.records =
    v.hop.world.facilities.records ++ es.map (⟨·, v.hop.world.facilities.spans⟩)

/-- The id of a visit is a given id, whole, behind it a delimiter and the segment of the service. -/
def Continues (v : Visit σ) (id : TraceId) : Prop :=
  ∃ d, v.hop.config.request.delimiter = some d ∧
    v.id.text = id.text ++ String.singleton d ++ v.hop.segment

/-- What holds of every visit: the id continues the inbound value if that can be read, it is one
that a header can carry, and the log tells of a value that cannot be read. -/
structure Sound (v : Visit σ) : Prop where
  id_extends : v.hop.config.request.Extends v.hop.world.facilities.source
    (v.inbound.bind TraceId.ofInbound?) v.id
  visible : Text.allVisible v.id.text = true
  not_blank : v.id.isBlank = false
  writes : v.Writes ((Boundary.request v.inbound).events (.ok v.id))

/-- A service never refuses a request. -/
theorem exists_visit
    (h : Handler H σ) (hop : Hop σ) (inbound : Option String) :
    ∃ v, hop.visit h inbound = some v ∧ v.hop = hop ∧ v.inbound = inbound ∧ v.Sound := by
  obtain ⟨id, f, hrun, hid, hvisible, hblank, hrecords⟩ :=
    Arrival.run_begin h hop.config (hop.headers inbound) hop.world
  rw [hop.headers_trace] at hid
  rw [Arrival.boundary, hop.headers_trace] at hrecords
  let copied := (Arrival.initialContext hop.config (hop.headers inbound)).auxiliary
  let v : Visit σ :=
    ⟨hop, inbound, ⟨⟨some id, copied⟩, id⟩, { hop.world with facilities := f }⟩
  have hvisit : hop.visit h inbound = some v := by rw [Hop.visit, hrun]
  exact ⟨v, hvisit, rfl, rfl, ⟨hid, hvisible, hblank, hrecords⟩⟩

/-- An id is an accepted value, a delimiter and a segment at most. -/
theorem Sound.length_le
    {v : Visit σ} (hv : v.Sound) :
    v.id.text.utf8ByteSize ≤ 512 + 1 + 32 := by
  have hsegment : v.hop.config.request.length ≤ 32 := v.hop.config.request.length_le_max
  have hid := hv.id_extends
  cases hparent : v.inbound.bind TraceId.ofInbound? with
  | none =>
    rw [hparent] at hid
    rw [hid.utf8ByteSize_root]
    omega
  | some p =>
    rw [hparent] at hid
    obtain ⟨raw, _, hraw⟩ := Option.bind_eq_some_iff.1 hparent
    have hbound := TraceId.length_of_ofInbound? hraw
    rw [TraceId.maxInboundLength] at hbound
    rw [hid.utf8ByteSize_child]
    omega

/-- What a visit makes of the id of the visit before, and what it writes to the log. -/
structure Follows (a b : Visit σ) : Prop where
  inbound : b.inbound = some a.id.text
  extends_iff : b.id.isExtensionOf a.id = true ↔ a.id.text.utf8ByteSize ≤ 512
  continues : a.id.text.utf8ByteSize ≤ 512 →
    b.Continues a.id ∧
      b.Writes [⟨.debug, "Trace id resolved",
        [("invoker", .text "request"), ("trace_id", .text b.id.text)]⟩]
  starts_anew : 512 < a.id.text.utf8ByteSize →
    b.id.text = b.hop.segment ∧
      b.Writes [
        ⟨.warn, "Discarding malformed inbound trace id, starting a new chain",
          [("inbound_len", .number a.id.text.utf8ByteSize)]⟩,
        ⟨.debug, "Trace id resolved",
          [("invoker", .text "request"), ("trace_id", .text b.id.text)]⟩]

theorem Sound.follows
    {a b : Visit σ} (ha : a.Sound) (hb : b.Sound) (hinbound : b.inbound = some a.id.text) :
    a.Follows b := by
  have hread := TraceId.ofInbound?_text ha.visible ha.not_blank
  have hid := hb.id_extends
  have hwrites := hb.writes
  have hblank : Text.isBlank a.id.text = false := ha.not_blank
  rw [hinbound, Option.bind_some, hread] at hid
  rw [hinbound] at hwrites
  simp only [Boundary.events, Boundary.rejections, hread, hblank, Boundary.invoker] at hwrites
  by_cases hlimit : a.id.text.utf8ByteSize ≤ TraceId.maxInboundLength
  · rw [if_pos hlimit] at hid hwrites
    refine ⟨hinbound, ⟨fun _ => hlimit, fun _ => hid.isExtensionOf⟩, ?_, ?_⟩
    · intro _
      exact ⟨hid.child a.id rfl, hwrites⟩
    · intro hover
      exact absurd hlimit (Nat.not_le.2 hover)
  · rw [if_neg hlimit] at hid hwrites
    have hshort : b.hop.config.request.length ≤ 32 := b.hop.config.request.length_le_max
    have hlong : 512 < a.id.text.utf8ByteSize := Nat.lt_of_not_le hlimit
    refine ⟨hinbound, ⟨?_, fun hle => absurd hle hlimit⟩, fun hle => absurd hle hlimit, ?_⟩
    · -- a segment is too short to extend an id beyond the limit
      intro hext
      rw [TraceId.isExtensionOf_iff] at hext
      have hle := hext.length_le
      rw [← Text.utf8ByteSize_of_allVisible _ ha.visible,
        ← Text.utf8ByteSize_of_allVisible _ hb.visible, hid.utf8ByteSize_root] at hle
      omega
    · intro _
      exact ⟨hid.root rfl, hwrites⟩

end Visit

/-- A journey visits every service, and each visit makes of the id before what it makes of any
inbound value. -/
theorem exists_journey
    {H : Type → Type} {σ : Type} (h : Handler H σ) (inbound : Option String)
    (hops : List (Hop σ)) :
    ∃ vs, journey h inbound hops = some vs ∧ vs.map Visit.hop = hops ∧
      (∀ v ∈ vs.head?, v.inbound = inbound) ∧ (∀ v ∈ vs, v.Sound) ∧
      vs.IsChain Visit.Follows := by
  induction hops generalizing inbound with
  | nil => exact ⟨[], rfl, rfl, by simp, by simp, List.isChain_nil⟩
  | cons hop hops ih =>
    obtain ⟨v, hvisit, hhop, hinbound, hv⟩ := Visit.exists_visit h hop inbound
    obtain ⟨vs, hvs, hhops, hhead, hsound, hchain⟩ := ih (some v.id.text)
    refine ⟨v :: vs, ?_, ?_, ?_, ?_, ?_⟩
    · simp only [journey, hvisit, hvs, Option.bind_eq_bind, Option.bind_some, Option.pure_def]
    · rw [List.map_cons, hhop, hhops]
    · intro first hfirst
      rw [List.head?_cons, Option.mem_some_iff] at hfirst
      rw [← hfirst, hinbound]
    · exact List.forall_mem_cons.2 ⟨hv, hsound⟩
    · cases vs with
      | nil => exact List.isChain_singleton v
      | cons next vs =>
        have hnext := hhead next rfl
        exact List.isChain_cons_cons.2
          ⟨hv.follows (hsound next List.mem_cons_self) hnext, hchain⟩

/-- Ids pass from service to service.  Whatever the services and their configurations are and
whatever value the first one finds in its trace header, none of them refuses the request, and every
id is visible and has at most 545 bytes.  Each id extends the one before, which then stands whole in
front of the delimiter and the segment of the service, exactly if the one before has at most 512
bytes; otherwise it is just the segment, and the log tells of the value that is discarded.  The
segment has the length that is configured for the service. -/
theorem journey_sound
    {H : Type → Type} {σ : Type} (h : Handler H σ) (inbound : Option String)
    (hops : List (Hop σ)) :
    ∃ vs, journey h inbound hops = some vs ∧ vs.map Visit.hop = hops ∧
      (∀ v ∈ vs.head?, v.inbound = inbound) ∧
      (∀ v ∈ vs, v.Sound ∧ v.id.text.utf8ByteSize ≤ 512 + 1 + 32 ∧
        v.hop.segment.utf8ByteSize = v.hop.config.request.length) ∧
      vs.IsChain Visit.Follows := by
  obtain ⟨vs, hvs, hhops, hhead, hsound, hchain⟩ := exists_journey h inbound hops
  refine ⟨vs, hvs, hhops, hhead, ?_, hchain⟩
  intro v hv
  exact ⟨hsound v hv, (hsound v hv).length_le, v.hop.config.request.utf8ByteSize_segment _⟩

end TraceLineage
