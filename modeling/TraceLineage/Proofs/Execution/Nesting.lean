import TraceLineage.Proofs.Execution.Inside
import TraceLineage.Proofs.Execution.Life
import TraceLineage.Proofs.Execution.Records

/-!
# Nesting of spans

Frames that make other spans current are nested, and the innermost one around an operation tells in
which spans the operation is performed; without such a frame it is performed in the spans around the
program.  A frame that continues the spans around it opens some of its own; any other one goes to a
place elsewhere.
-/

namespace TraceLineage

namespace Frame

variable {σ : Type}

/-- The spans that a frame makes current, if it does. -/
def path? : Frame → Option (List Span)
  | scope _ => none
  | guard _ => none
  | span path => some path
  | detached => some []
  | extent => none

theorem spans_enter_eq
    (fr : Frame) (w : World σ) :
    (fr.enter w).facilities.spans = fr.path?.getD w.facilities.spans := by
  cases fr <;> rfl

theorem path?_parked
    (fr : Frame) (v : World σ) :
    (fr.parked v).path? = fr.path? := by
  cases fr <;> rfl

end Frame

namespace Happening

/-- An operation with the spans that are made current around it, from the outside in. -/
abbrev Nested : Type 1 :=
  List (List Span) × Happening

/-- Operations inside a frame, seen from around it. -/
def within (fr : Frame) (xs : List Nested) : List Nested :=
  xs.map fun x => (fr.path?.toList ++ x.1, x.2)

/-- Operations around which no other spans are made current. -/
def direct (xs : List Happening) : List Nested :=
  xs.map ([], ·)

theorem map_snd_within
    (fr : Frame) (xs : List Nested) :
    (within fr xs).map Prod.snd = xs.map Prod.snd := by
  rw [within, List.map_map]
  rfl

theorem map_snd_direct
    (xs : List Happening) :
    (direct xs).map Prod.snd = xs := by
  rw [direct, List.map_map]
  exact List.map_id xs

end Happening

open Happening

namespace Prog

variable {H : Type → Type} {σ α : Type}

/-- What is performed when a suspended program is dropped, with the spans that are made current
around each operation. -/
def dropNested : {α : Type} → Prog H α → Nat → World σ → List Nested
  | _, frame fr body _, d, w =>
    within fr (body.dropNested (d + fr.depth) (fr.enter w)) ++
      direct (fr.abandonTrace d (body.drop (fr.enter w)))
  | _, _, _, _ => []

/-- What a program performs when it is driven, with the spans that are made current around each
operation. -/
def nested (h : Handler H σ) : {α : Type} → Prog H α → Bool → Nat → World σ → List Nested
  | _, done _, _, _, _ => []
  | _, suspend rest, through, d, w => if through then rest.nested h through d w else []
  | _, never, _, _, _ => []
  | _, op o next, through, d, w =>
    ([], w.happening d o) :: (next (w.perform o).1).nested h through d (w.perform o).2
  | _, host r next, through, d, w =>
    match h _ r w with
    | (some (.value a), v) => (next a).nested h through d v
    | _ => []
  | _, frame fr body next, through, d, w =>
    within fr (body.nested h through (d + fr.depth) (fr.enter w)) ++
      match body.drive h through (fr.enter w) with
      | (.finished x, v) =>
        direct (fr.leaveTrace d v) ++ (next x).nested h through d (fr.leave w v)
      | (.pending _, _) => []
  | _, block body next, through, d, w =>
    body.nested h true d w ++
      match body.drive h true w with
      | (.finished x, v) => (next (some x)).nested h through d v
      | (.pending rest, v) => rest.dropNested d v ++ (next none).nested h through d (rest.drop v)

theorem map_snd_dropNested
    (p : Prog H α) (d : Nat) (w : World σ) :
    (p.dropNested d w).map Prod.snd = p.dropTrace d w := by
  induction p generalizing d w with
  | frame fr body next ih _ =>
    rw [dropNested, dropTrace, List.map_append, map_snd_within, ih, map_snd_direct]
  | _ => rfl

/-- Without the spans around them it is what the program performs. -/
theorem map_snd_nested
    (h : Handler H σ) (p : Prog H α) (through : Bool) (d : Nat) (w : World σ) :
    (p.nested h through d w).map Prod.snd = p.trace h through d w := by
  induction p generalizing through d w with
  | done x => rfl
  | suspend rest ih =>
    cases through with
    | false => rfl
    | true => exact ih true d w
  | never => rfl
  | op o next ih => rw [nested, trace, List.map_cons, ih]
  | host r next ih =>
    simp only [nested, trace]
    rcases h _ r w with ⟨_ | a | e, v⟩
    · rfl
    · exact ih a through d v
    · rfl
  | frame fr body next ihbody ihnext =>
    simp only [nested, trace, List.map_append, map_snd_within, ihbody]
    rcases body.drive h through (fr.enter w) with ⟨x | rest, v⟩
    · simp only [List.map_append, map_snd_direct, ihnext]
    · rfl
  | block body next ihbody ihnext =>
    simp only [nested, trace, List.map_append, ihbody]
    rcases body.drive h true w with ⟨x | rest, v⟩
    · simp only [ihnext]
    · simp only [List.map_append, map_snd_dropNested, ihnext]

end Prog

/-! ## Where operations are performed -/

namespace Happening

/-- An operation that is performed in the innermost spans that are made current around it, or in
`base` if none are. -/
def Located (base : List Span) (x : Nested) : Prop :=
  x.2.spans = x.1.getLast?.getD base

/-- Seen from around a frame an operation is performed at the same place. -/
theorem Located.outside
    {σ : Type} {fr : Frame} {w : World σ} {xs : List Nested}
    (hxs : ∀ x ∈ xs, Located (fr.enter w).facilities.spans x) :
    ∀ x ∈ within fr xs, Located w.facilities.spans x := by
  intro x hx
  obtain ⟨y, hy, rfl⟩ := List.mem_map.1 hx
  have hspans := hxs y hy
  rw [Located, fr.spans_enter_eq] at hspans
  rw [Located, hspans]
  cases fr.path? with
  | none => rfl
  | some path => rw [Option.toList_some, List.singleton_append, List.getLast?_cons]; rfl

theorem Located.of_direct
    {base : List Span} {xs : List Happening} (hxs : ∀ x ∈ xs, x.spans = base) :
    ∀ x ∈ direct xs, Located base x := by
  intro x hx
  obtain ⟨y, hy, rfl⟩ := List.mem_map.1 hx
  exact hxs y hy

end Happening

namespace Frame

variable {σ : Type}

/-- A frame acts itself in the spans that are current inside it at the end, and only if they are the
ones around it. -/
theorem spans_of_mem_leaveTrace
    (fr : Frame) {d : Nat} {w v : World σ}
    (hv : v.facilities.spans = (fr.enter w).facilities.spans) :
    ∀ x ∈ fr.leaveTrace d v, x.spans = w.facilities.spans := by
  intro x hx
  rcases fr.eq_guard_or with ⟨begun, rfl⟩ | hfr
  · rw [List.mem_singleton.1 hx]
    exact hv
  · rw [leaveTrace_of_not_guard hfr] at hx
    exact absurd hx List.not_mem_nil

theorem spans_of_mem_abandonTrace
    (fr : Frame) {d : Nat} {w v : World σ}
    (hv : v.facilities.spans = (fr.enter w).facilities.spans) :
    ∀ x ∈ fr.abandonTrace d v, x.spans = w.facilities.spans := by
  intro x hx
  rcases fr.eq_guard_or with ⟨begun, rfl⟩ | hfr
  · cases begun with
    | false => exact absurd hx List.not_mem_nil
    | true =>
      rw [List.mem_singleton.1 hx]
      exact hv
  · rw [abandonTrace_of_not_guard hfr] at hx
    exact absurd hx List.not_mem_nil

end Frame

namespace Prog

variable {H : Type → Type} {σ α : Type} {h : Handler H σ}

theorem located_of_mem_dropNested
    (hh : h.KeepsSpans) (p : Prog H α) (d : Nat) (w : World σ) :
    ∀ x ∈ p.dropNested d w, Located w.facilities.spans x := by
  induction p generalizing d w with
  | frame fr body next ih _ =>
    have hspans := hh.across.drop body (fr.enter w)
    intro x hx
    rcases List.mem_append.1 hx with hx | hx
    · exact Located.outside (ih _ (fr.enter w)) x hx
    · exact Located.of_direct (fr.spans_of_mem_abandonTrace hspans) x hx
  | _ => exact fun x hx => absurd hx List.not_mem_nil

/-- Every operation is performed in the innermost spans that are made current around it. -/
theorem located_of_mem_nested
    (hh : h.KeepsSpans) (p : Prog H α) (through : Bool) (d : Nat) (w : World σ) :
    ∀ x ∈ p.nested h through d w, Located w.facilities.spans x := by
  induction p generalizing through d w with
  | done x => exact fun x hx => absurd hx List.not_mem_nil
  | suspend rest ih =>
    cases through with
    | false => exact fun x hx => absurd hx List.not_mem_nil
    | true => exact ih true d w
  | never => exact fun x hx => absurd hx List.not_mem_nil
  | op o next ih =>
    have hspans := (w.records_perform d o).2
    intro x hx
    rcases List.mem_cons.1 hx with rfl | hx
    · rfl
    · rw [← hspans]
      exact ih _ through d _ x hx
  | host r next ih =>
    have hspans := hh _ r w
    simp only [nested]
    rcases hr : h _ r w with ⟨_ | a | e, v⟩
    · exact fun x hx => absurd hx List.not_mem_nil
    · rw [hr] at hspans
      rw [← hspans]
      exact ih a through d v
    · exact fun x hx => absurd hx List.not_mem_nil
  | frame fr body next ihbody ihnext =>
    have hinside := hh.across.drive body through (fr.enter w)
    simp only [nested]
    intro x hx
    rcases List.mem_append.1 hx with hx | hx
    · exact Located.outside (ihbody through _ (fr.enter w)) x hx
    rcases hb : body.drive h through (fr.enter w) with ⟨y | rest, v⟩
    · rw [hb] at hx hinside
      rcases List.mem_append.1 hx with hx | hx
      · exact Located.of_direct (fr.spans_of_mem_leaveTrace hinside) x hx
      · have hbehind := hh.across.leave fr hinside
        rw [← hbehind]
        exact ihnext y through d _ x hx
    · rw [hb] at hx
      exact nomatch hx
  | block body next ihbody ihnext =>
    have hinside := hh.across.drive body true w
    simp only [nested]
    intro x hx
    rcases List.mem_append.1 hx with hx | hx
    · exact ihbody true d w x hx
    rcases hb : body.drive h true w with ⟨y | rest, v⟩
    · rw [hb] at hx hinside
      rw [← hinside]
      exact ihnext _ through d v x hx
    · rw [hb] at hx hinside
      have hdrop := hh.across.drop rest v
      rcases List.mem_append.1 hx with hx | hx
      · rw [← hinside]
        exact located_of_mem_dropNested hh rest d v x hx
      · rw [← hinside, ← hdrop]
        exact ihnext none through d _ x hx

/-! ## Lives -/

/-- What becomes performed of a program that is polled in some states, with the spans that are made
current around each operation. -/
def nestedLife (h : Handler H σ) (p : Prog H α) (d : Nat) : List (World σ) → List Nested
  | [] => []
  | w :: ws =>
    p.nested h false d w ++
      match p.poll h w with
      | (.finished _, _) => []
      | (.pending rest, _) => rest.nestedLife h d ws

/-- Without the spans around them it is what is performed in that life. -/
theorem map_snd_nestedLife
    (h : Handler H σ) (p : Prog H α) (ws : List (World σ)) :
    (p.nestedLife h 0 ws).map Prod.snd = (p.life h ws).trace := by
  induction ws generalizing p with
  | nil => rfl
  | cons w ws ih =>
    rw [nestedLife, List.map_append, map_snd_nested]
    rcases hp : p.poll h w with ⟨x | rest, v⟩
    · rw [life_of_finished ws hp]
      exact List.append_nil _
    · rw [life_of_pending ws hp, ih]

theorem located_of_mem_nestedLife
    (hh : h.KeepsSpans) (p : Prog H α) (d : Nat) (ws : List (World σ)) :
    ∀ x ∈ p.nestedLife h d ws, ∃ w ∈ ws, Located w.facilities.spans x := by
  induction ws generalizing p with
  | nil => exact fun x hx => absurd hx List.not_mem_nil
  | cons w ws ih =>
    intro x hx
    rw [nestedLife] at hx
    rcases List.mem_append.1 hx with hx | hx
    · exact ⟨w, List.mem_cons_self, p.located_of_mem_nested hh false d w x hx⟩
    rcases hp : p.poll h w with ⟨y | rest, v⟩
    · rw [hp] at hx
      exact absurd hx List.not_mem_nil
    · rw [hp] at hx
      obtain ⟨u, hu, hlocated⟩ := ih rest x hx
      exact ⟨u, List.mem_cons_of_mem _ hu, hlocated⟩

/-- Behind every poll the current span is the one in front of it. -/
theorem spans_life
    (hh : h.KeepsSpans) (p : Prog H α) (ws : List (World σ)) :
    (p.life h ws).states.map (·.facilities.spans) <+: ws.map (·.facilities.spans) := by
  induction ws generalizing p with
  | nil => exact List.prefix_refl _
  | cons w ws ih =>
    have hspans := hh.across.drive p false w
    rcases hp : p.poll h w with ⟨x | rest, v⟩
    · rw [poll] at hp
      rw [hp] at hspans
      rw [life_of_finished ws hp]
      exact List.cons_prefix_cons.2 ⟨hspans, List.nil_prefix⟩
    · rw [poll] at hp
      rw [hp] at hspans
      rw [life_of_pending ws hp]
      exact List.cons_prefix_cons.2 ⟨hspans, ih rest⟩

/-- What becomes performed inside a frame that is no guard is what becomes performed of its part in
some states. -/
theorem nestedLife_inFrame
    (fr : Frame) (hfr : fr.isGuard = false) (body : Prog H α) (d : Nat) (ws : List (World σ)) :
    ∃ vs, (body.inFrame fr).nestedLife h d ws =
      within fr (body.nestedLife h (d + fr.depth) vs) := by
  induction ws generalizing fr body with
  | nil => exact ⟨[], rfl⟩
  | cons w ws ih =>
    rcases hb : body.drive h false (fr.enter w) with ⟨x | rest, v⟩
    · refine ⟨[fr.enter w], ?_⟩
      simp only [nestedLife, inFrame, nested, poll, drive, hb, Frame.leaveTrace_of_not_guard hfr]
      simp only [direct, List.map_nil, List.append_nil]
    · have hparked : (fr.parked v).isGuard = false := by
        rw [fr.isGuard_parked]
        exact hfr
      obtain ⟨vs, hrest⟩ := ih (fr.parked v) hparked rest
      refine ⟨fr.enter w :: vs, ?_⟩
      simp only [inFrame, within, fr.path?_parked, fr.depth_parked] at hrest
      simp only [nestedLife, inFrame, nested, poll, drive, hb, List.append_nil, hrest, within,
        List.map_append]

/-- At every poll what is performed inside some spans is performed with these around it. -/
theorem exists_cons_of_mem_nestedLife
    (path : List Span) (body : Prog H α) (d : Nat) (ws : List (World σ)) :
    ∀ x ∈ (body.inFrame (.span path)).nestedLife h d ws, ∃ inner, x.1 = path :: inner := by
  obtain ⟨vs, hlife⟩ := nestedLife_inFrame (h := h) (.span path) rfl body d ws
  rw [hlife]
  intro x hx
  obtain ⟨y, _, rfl⟩ := List.mem_map.1 hx
  exact ⟨y.1, rfl⟩

end Prog

/-! ## Spans of one's own -/

namespace Happening

/-- Seen from inside the outermost spans that are made current an operation is performed at the same
place. -/
theorem Located.inside
    {base path : List Span} {inner : List (List Span)} {x : Nested}
    (hx : Located base x) (hpath : x.1 = path :: inner) :
    Located path (inner, x.2) := by
  rw [Located, hpath, List.getLast?_cons] at hx
  exact hx

/-- Spans that are made current one inside the other and open the spans `more` in `base`: each of
them begins with those around it. -/
inductive Opens : List Span → List (List Span) → List Span → Prop
  | none (base : List Span) : Opens base [] []
  | some {base : List Span} (first : List Span) {paths : List (List Span)} {more : List Span} :
    Opens (base ++ first) paths more → Opens base ((base ++ first) :: paths) (first ++ more)

theorem Opens.getLast?_eq
    {base more : List Span} {paths : List (List Span)} (hpaths : Opens base paths more) :
    paths.getLast?.getD base = base ++ more := by
  induction hpaths with
  | none base => exact (List.append_nil base).symm
  | some first _ ih =>
    rw [List.getLast?_cons, Option.getD_some, ih, List.append_assoc]

theorem Located.spans_of_opens
    {base more : List Span} {x : Nested} (hx : Located base x)
    (hopens : Opens base x.1 more) :
    ∀ q ∈ x.2.records, q.spans = base ++ more := by
  intro q hq
  rw [x.2.spans_of_mem_records q hq, hx, hopens.getLast?_eq]

end Happening
end TraceLineage
