import TraceLineage.Proofs.Execution.Nesting

/-!
# Places of operations

The place of an operation is the number of frames around it that make other spans current.  An
operation that is performed at the place where its program is driven finds the spans that are
current there, at every poll, whatever happens in spans that the program opens itself.
-/

namespace TraceLineage

namespace Frame

variable {σ : Type}

/-- Whether other spans are current inside a frame. -/
def replacesSpans : Frame → Bool
  | scope _ => false
  | guard _ => false
  | span _ => true
  | detached => true
  | extent => false

/-- By how much a frame changes the place of what is inside it. -/
def spanDepth (fr : Frame) : Nat :=
  if fr.replacesSpans = true then 1 else 0

theorem length_path?
    (fr : Frame) :
    fr.path?.toList.length = fr.spanDepth := by
  cases fr <;> rfl

end Frame

namespace Happening

def placedAt (place : Nat) (xs : List Happening) : List (Nat × Happening) :=
  xs.map (place, ·)

/-- The place of an operation, counted from `place` on, by the spans that are made current around
it. -/
def numbered (place : Nat) (x : Nested) : Nat × Happening :=
  (place + x.1.length, x.2)

theorem map_numbered_direct
    (place : Nat) (xs : List Happening) :
    (direct xs).map (numbered place) = placedAt place xs := by
  rw [direct, List.map_map]
  rfl

theorem map_numbered_within
    (place : Nat) (fr : Frame) (xs : List Nested) :
    (within fr xs).map (numbered place) = xs.map (numbered (place + fr.spanDepth)) := by
  rw [within, List.map_map]
  refine List.map_congr_left fun x _ => ?_
  simp only [Function.comp_apply, numbered, List.length_append, fr.length_path?, Nat.add_assoc]

end Happening

open Happening

namespace Prog

variable {H : Type → Type} {σ α : Type}

/-- What is performed when a suspended program is dropped, with the places. -/
def dropPlaced : {α : Type} → Prog H α → Nat → Nat → World σ → List (Nat × Happening)
  | _, frame fr body _, place, d, w =>
    body.dropPlaced (place + fr.spanDepth) (d + fr.depth) (fr.enter w) ++
      placedAt place (fr.abandonTrace d (body.drop (fr.enter w)))
  | _, _, _, _, _ => []

/-- What a program performs when it is driven, with the places. -/
def placed (h : Handler H σ) :
    {α : Type} → Prog H α → Bool → Nat → Nat → World σ → List (Nat × Happening)
  | _, done _, _, _, _, _ => []
  | _, suspend rest, through, place, d, w =>
    if through then rest.placed h through place d w else []
  | _, never, _, _, _, _ => []
  | _, op o next, through, place, d, w =>
    (place, w.happening d o) ::
      (next (w.perform o).1).placed h through place d (w.perform o).2
  | _, host r next, through, place, d, w =>
    match h _ r w with
    | (some (.value a), v) => (next a).placed h through place d v
    | _ => []
  | _, frame fr body next, through, place, d, w =>
    body.placed h through (place + fr.spanDepth) (d + fr.depth) (fr.enter w) ++
      match body.drive h through (fr.enter w) with
      | (.finished x, v) =>
        placedAt place (fr.leaveTrace d v) ++ (next x).placed h through place d (fr.leave w v)
      | (.pending _, _) => []
  | _, block body next, through, place, d, w =>
    body.placed h true place d w ++
      match body.drive h true w with
      | (.finished x, v) => (next (some x)).placed h through place d v
      | (.pending rest, v) =>
        rest.dropPlaced place d v ++ (next none).placed h through place d (rest.drop v)

theorem map_numbered_dropNested
    (p : Prog H α) (place d : Nat) (w : World σ) :
    (p.dropNested d w).map (numbered place) = p.dropPlaced place d w := by
  induction p generalizing place d w with
  | frame fr body next ih _ =>
    rw [dropNested, dropPlaced, List.map_append, map_numbered_within, ih, map_numbered_direct]
  | _ => rfl

/-- Places are the numbers of spans that are made current around the operations. -/
theorem map_numbered_nested
    (h : Handler H σ) (p : Prog H α) (through : Bool) (place d : Nat) (w : World σ) :
    (p.nested h through d w).map (numbered place) = p.placed h through place d w := by
  induction p generalizing through place d w with
  | done x => rfl
  | suspend rest ih =>
    cases through with
    | false => rfl
    | true => exact ih true place d w
  | never => rfl
  | op o next ih =>
    rw [nested, placed, List.map_cons, ih]
    rfl
  | host r next ih =>
    simp only [nested, placed]
    rcases h _ r w with ⟨_ | a | e, v⟩
    · rfl
    · exact ih a through place d v
    · rfl
  | frame fr body next ihbody ihnext =>
    simp only [nested, placed, List.map_append, map_numbered_within, ihbody]
    rcases body.drive h through (fr.enter w) with ⟨x | rest, v⟩
    · simp only [List.map_append, map_numbered_direct, ihnext]
    · rfl
  | block body next ihbody ihnext =>
    simp only [nested, placed, List.map_append, ihbody]
    rcases body.drive h true w with ⟨x | rest, v⟩
    · simp only [ihnext]
    · simp only [List.map_append, map_numbered_dropNested, ihnext]

theorem map_snd_placed
    (h : Handler H σ) (p : Prog H α) (through : Bool) (place d : Nat) (w : World σ) :
    (p.placed h through place d w).map Prod.snd = p.trace h through d w := by
  rw [← map_numbered_nested, List.map_map]
  exact p.map_snd_nested h through d w

end Prog

/-! ## Spans -/

namespace Happening

/-- An operation that is performed at a place in some spans, or further inside. -/
def PlacedIn (place : Nat) (path : List Span) (x : Nat × Happening) : Prop :=
  place ≤ x.1 ∧ (x.1 = place → x.2.spans = path)

theorem Located.placedIn
    {base : List Span} {x : Nested} (hx : Located base x) (place : Nat) :
    PlacedIn place base (numbered place x) := by
  refine ⟨Nat.le_add_right _ _, ?_⟩
  intro hplace
  have hnone : x.1 = [] := List.eq_nil_of_length_eq_zero (Nat.add_eq_left.1 hplace)
  rw [Located, hnone] at hx
  exact hx

end Happening

namespace Prog

variable {H : Type → Type} {σ α : Type} {h : Handler H σ}

/-- What a program performs at its own place is performed in the spans that are current where the
program is driven. -/
theorem placedIn_of_mem_placed
    (hh : h.KeepsSpans) (p : Prog H α) (through : Bool) (place d : Nat) (w : World σ) :
    ∀ x ∈ p.placed h through place d w, PlacedIn place w.facilities.spans x := by
  rw [← map_numbered_nested]
  intro x hx
  obtain ⟨y, hy, rfl⟩ := List.mem_map.1 hx
  exact (p.located_of_mem_nested hh through d w y hy).placedIn place

/-! ## Lives -/

/-- What becomes performed of a program that is polled in some states, with the places. -/
def placedLife (h : Handler H σ) (p : Prog H α) : List (World σ) → List (Nat × Happening)
  | [] => []
  | w :: ws =>
    p.placed h false 0 0 w ++
      match p.poll h w with
      | (.finished _, _) => []
      | (.pending rest, _) => rest.placedLife h ws

theorem map_numbered_nestedLife
    (h : Handler H σ) (p : Prog H α) (ws : List (World σ)) :
    (p.nestedLife h 0 ws).map (numbered 0) = p.placedLife h ws := by
  induction ws generalizing p with
  | nil => rfl
  | cons w ws ih =>
    rw [nestedLife, placedLife, List.map_append, map_numbered_nested]
    rcases p.poll h w with ⟨x | rest, v⟩
    · rfl
    · exact congrArg _ (ih rest)

theorem map_snd_placedLife
    (h : Handler H σ) (p : Prog H α) (ws : List (World σ)) :
    (p.placedLife h ws).map Prod.snd = (p.life h ws).trace := by
  rw [← map_numbered_nestedLife, List.map_map]
  exact p.map_snd_nestedLife h ws

end Prog

namespace Ambient

variable {H : Type → Type} {σ α : Type} {h : Handler H σ}

/-- What is performed directly inside spans is performed in these spans, at whatever poll. -/
theorem placedIn_of_mem_placedLife
    (hh : h.KeepsSpans) {path : List Span} (hpath : path ≠ []) (ctx : Context) (body : Prog H α)
    (ws : List (World σ)) :
    ∀ x ∈ (underSpans path (inContext ctx body)).placedLife h ws, PlacedIn 1 path x := by
  rw [underSpans_of_ne_nil hpath, ← Prog.map_numbered_nestedLife]
  intro x hx
  obtain ⟨y, hy, rfl⟩ := List.mem_map.1 hx
  obtain ⟨w, _, hlocated⟩ := Prog.located_of_mem_nestedLife hh _ 0 ws y hy
  obtain ⟨inner, hinner⟩ := Prog.exists_cons_of_mem_nestedLife path _ 0 ws y hy
  have hplaced := (hlocated.inside hinner).placedIn 1
  have hplace : numbered 0 y = numbered 1 (inner, y.2) := by
    simp only [numbered, hinner, List.length_cons, Nat.zero_add, Nat.add_comm 1]
  rw [hplace]
  exact hplaced

end Ambient
end TraceLineage
