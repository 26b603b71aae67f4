import TapeRunner.Proofs.Machine.Safety
import TapeRunner.Proofs.Session.Reachable

/-!
# What is shown of a tape

A window between two bounds on the tape holds the cells between them, as far as the tape goes
(`Machine.getElem?_window`, `Machine.length_window`). The view of a machine is such a window, around
the head where there are enough cells to its left, and from the first cell on where there are not.
In both cases, and wherever the tape ends, it is a neighbourhood of the head, as long as the head is
on the tape (`Machine.view_showsNeighbourhood`).

The head is there after any requests to a machine, and the runs of a session are sound at every
moment (`Runner.upheldThroughout_runsSound`), also in the midst of a step. So that is what observers
see, whatever was done before they look (`neighbourhood_shown`).
-/

set_option autoImplicit false
set_option relaxedAutoImplicit false

namespace TapeRunner

/-- A view shows the neighbourhood of the head of a machine within a radius: a stretch of the tape
that is no longer than the radius to both sides of a cell, with the cells as they are, the one under
the head among them, and every cell that is no further away from it than the radius. -/
structure TapeView.ShowsNeighbourhood (radius : Nat) (shown : TapeView) (machine : Machine) :
    Prop where
  head_eq : shown.head = machine.head
  length_le : shown.cells.length ≤ 2 * radius + 1
  cell_eq : ∀ place < shown.cells.length,
    shown.cells[place]? = machine.cells[shown.start + place]?
  start_le : shown.start ≤ shown.head
  head_lt : shown.head - shown.start < shown.cells.length
  cell_of_head : shown.cells[shown.head - shown.start]? = machine.cells[machine.head]?
  cell_of_near : ∀ position < machine.cells.size,
    machine.head ≤ position + radius → position ≤ machine.head + radius →
      shown.start ≤ position ∧
        shown.cells[position - shown.start]? = machine.cells[position]?

namespace Machine

/-! ### Windows -/

/-- Bounds on the tape count from its first cell, and none is beyond its end. -/
theorem window_natCast (machine : Machine) (start count : Nat) :
    machine.window start count = (machine.cells.extract (min machine.cells.size start)
      (min machine.cells.size (start + count))).toList := by
  have hclamp (bound : Nat) : (min (machine.cells.size : Int) (max 0
      (if (bound : Int) < 0 then (bound : Int) + machine.cells.size else bound))).toNat =
        min machine.cells.size bound := by
    rw [if_neg (Int.not_lt.mpr (Int.natCast_nonneg bound))]
    omega
  have hstop := hclamp (start + count)
  rw [Int.natCast_add] at hstop
  simp only [window, hclamp, hstop]

/-- A window has the cells asked for, unless the tape ends before. -/
theorem length_window (machine : Machine) (start count : Nat) :
    (machine.window start count).length = min count (machine.cells.size - start) := by
  rw [window_natCast, Array.length_toList, Array.size_extract]
  omega

/-- The cells of a window are those of the tape from its start on. -/
theorem getElem?_window (machine : Machine) (start : Nat) {count place : Nat}
    (hplace : place < count) :
    (machine.window start count)[place]? = machine.cells[start + place]? := by
  rw [window_natCast, Array.getElem?_toList, Array.getElem?_extract]
  -- Beyond the end of the tape there is a cell on neither side.
  by_cases hinside : start + place < machine.cells.size
  · rw [if_pos (by omega), Nat.min_eq_right (by omega)]
  · rw [if_neg (by omega), Array.getElem?_eq_none (by omega)]

/-! ### Views -/

variable {machine : Machine}

/-- A view is cut at the end of the tape only. -/
theorem length_cells_view (machine : Machine) : machine.view.cells.length =
    min (2 * viewRadius + 1) (machine.cells.size - (machine.head - viewRadius)) :=
  machine.length_window (machine.head - viewRadius) (2 * viewRadius + 1)

theorem getElem?_cells_view {place : Nat} (hplace : place < 2 * viewRadius + 1) :
    machine.view.cells[place]? = machine.cells[machine.head - viewRadius + place]? :=
  machine.getElem?_window (machine.head - viewRadius) hplace

/-- A cell is shown at its distance from the start of the view. -/
theorem getElem?_cells_view_sub {position : Nat} (hstart : machine.head - viewRadius ≤ position)
    (hstop : position < machine.head - viewRadius + (2 * viewRadius + 1)) :
    machine.view.cells[position - (machine.head - viewRadius)]? = machine.cells[position]? := by
  rw [getElem?_cells_view (by omega), Nat.add_sub_cancel' hstart]

/-- A machine with its head on the tape is shown with the neighbourhood of the head. -/
theorem view_showsNeighbourhood (hinside : machine.head < machine.cells.size) :
    machine.view.ShowsNeighbourhood viewRadius machine where
  head_eq := rfl
  length_le := by
    rw [length_cells_view]
    exact Nat.min_le_left _ _
  cell_eq place hplace := by
    rw [length_cells_view] at hplace
    exact getElem?_cells_view (Nat.lt_of_lt_of_le hplace (Nat.min_le_left _ _))
  start_le := Nat.sub_le _ _
  head_lt := by
    rw [length_cells_view]
    show machine.head - (machine.head - viewRadius) < _
    omega
  cell_of_head := by
    have hstop : machine.head < machine.head - viewRadius + (2 * viewRadius + 1) := by omega
    exact getElem?_cells_view_sub (Nat.sub_le _ _) hstop
  cell_of_near position hposition hleft hright := by
    -- Where the view begins with the first cell, it reaches further than the radius to the right.
    have hstart : machine.head - viewRadius ≤ position := by omega
    exact ⟨hstart, getElem?_cells_view_sub hstart (by omega)⟩

end Machine

/-- What is seen of a run with a sound machine. -/
theorem Run.Sound.shows {run : Run} {machine : Machine} (hsound : run.Sound)
    (htape : run.engine = .tape machine) :
    ∃ shown, run.view.tape = some shown ∧ shown.ShowsNeighbourhood viewRadius machine := by
  refine ⟨machine.view, ?_, Machine.view_showsNeighbourhood (hsound machine htape).head_lt⟩
  simp only [Run.view, htape]

namespace Runner

/-! ### Sessions -/

/-- Whatever is done, in a session or to it from outside, every run stays sound. -/
theorem upheldThroughout_runsSound : UpheldThroughout RunsSound where
  noted := by
    rintro _ _ hsound ⟨_, _, _, _, rfl⟩
    exact hsound
  session _ hsound _ := hsound
  surroundings _ _ _ hsound := hsound
  context _ hsound _ _ := hsound
  changeRun _ _ hsound hchange := hsound.changeRun hchange
  cancelled _ hsound := hsound
  cleared hsound := hsound
  armedAt _ hsound _ _ := hsound
  detached hsound := hsound
  anySession _ hsound := hsound
  pushed hsound hrun := hsound.push hrun
  attachedTo _ hsound _ := hsound

theorem runsSound_of_fresh {bench : Bench} {hooks : List Hook} {journal : Journal} {start : Runner}
    (hstart : fresh bench hooks journal = .ok start) : start.RunsSound := by
  obtain ⟨_, -, rfl⟩ := exists_of_fresh hstart
  intro position run hrun
  simp at hrun

/-- The attached run is one of the runs. -/
theorem RunsSound.of_attached {runner : Runner} (hsound : runner.RunsSound) {run : Run}
    (hrun : runner.run? = some run) : run.Sound := by
  obtain ⟨position, -, hfound⟩ := Option.bind_eq_some_iff.mp hrun
  exact hsound position run hfound

end Runner

/-- What is shown of a tape is the neighbourhood of the head, on tapes of every length. So it is for
a machine after any requests, whatever input they are offered and whether they are granted or not;
and for the engine of a session at every moment of every run, between orders and in the midst of
them, whatever the observers do. -/
theorem neighbourhood_shown :
    (∀ (code : String) (size : Nat) (requests : List (Machine.Request × Option Int))
        (supply : Supply), 0 < size →
      let machine := requests.foldl Machine.after (.load code size)
      ∃ shown, (Run.mk code (.tape machine) supply).view.tape = some shown ∧
        shown.ShowsNeighbourhood 8 machine) ∧
    ∀ (bench : Bench) (hooks : List Hook) (journal : Journal) (start runner : Runner),
      Runner.fresh bench hooks journal = .ok start → start.Reachable runner →
      ∀ (run : Run) (machine : Machine), runner.run? = some run → run.engine = .tape machine →
        ∃ view shown, runner.engineView = some view ∧ view.tape = some shown ∧
          shown.ShowsNeighbourhood 8 machine := by
  constructor
  · intro code size requests supply hsize machine
    have hwithin := (Machine.within_load code hsize).afterAll requests
    refine Run.Sound.shows (fun found hfound ↦ ?_) rfl
    obtain rfl := Engine.tape.inj hfound
    exact hwithin.sound
  · intro bench hooks journal start runner hstart hreachable run machine hrun htape
    have hsound := Runner.upheldThroughout_runsSound.reachable hreachable
      (Runner.runsSound_of_fresh hstart)
    obtain ⟨shown, hshown, hshows⟩ := (hsound.of_attached hrun).shows htape
    exact ⟨run.view, shown, congrArg (Option.map Run.view) hrun, hshown, hshows⟩

/-- A tape that is shorter than the view is shown as a whole. Of a longer one, whose head is moved to
its last cell by an observer of the output in the midst of a step, the end is shown. -/
theorem neighbourhood_shown_edges :
    (∃ machine, machine = [(.step, none), (.execute ",", some (-1))].foldl Machine.after
        (.load ">+" 3) ∧ TapeView.ShowsNeighbourhood 8 ⟨1, 0, [0, 255, 0]⟩ machine) ∧
    ∃ start runner run machine,
      Runner.fresh ⟨.tape, 12, "", 0, .empty⟩ [⟨.output, [], []⟩] .initial = .ok start ∧
      start.Reachable runner ∧ runner.run? = some run ∧ run.engine = .tape machine ∧
      run.view.counter = 11 ∧
        TapeView.ShowsNeighbourhood 8 ⟨11, 3, [0, 0, 0, 0, 0, 0, 0, 1, 0]⟩ machine := by
  constructor
  · obtain ⟨shown, hshown, hshows⟩ := neighbourhood_shown.1 ">+" 3
      [(.step, none), (.execute ",", some (-1))] ⟨[]⟩ (by decide)
    have hview : shown = ⟨1, 0, [0, 255, 0]⟩ := by
      refine Option.some.inj (hshown.symm.trans ?_)
      decide +kernel
    exact ⟨_, rfl, hview ▸ hshows⟩
  · obtain ⟨start, hstart⟩ : ∃ start,
        Runner.fresh ⟨.tape, 12, "", 0, .empty⟩ [⟨.output, [], []⟩] .initial = .ok start :=
      ⟨_, rfl⟩
    let cast : Runner.Cast := ⟨fun _ _ ↦ .inTurn [.inject ">"], 20, 2,
      .inTurn [.start ">>>>>>>>>>+." ⟨true, true⟩]⟩
    -- The second event is that of the instruction beside the program.
    let runner := cast.moment start fun runner ↦ runner.recorded.size = 2
    have hmoment : runner.engineView =
        some ⟨">>>>>>>>>>+.", 11, false, some ⟨11, 3, [0, 0, 0, 0, 0, 0, 0, 1, 0]⟩⟩ := by
      cases hstart
      decide +kernel
    have hreachable : start.Reachable runner := ⟨cast, _, rfl⟩
    obtain ⟨run, hrun, hview⟩ := Option.map_eq_some_iff.mp hmoment
    cases htape : run.engine with
    | scripted counter =>
      have hnone := congrArg EngineView.tape hview
      simp only [Run.view, htape] at hnone
      cases hnone
    | tape machine =>
      obtain ⟨view, shown, hengine, hshown, hshows⟩ :=
        neighbourhood_shown.2 _ _ _ start runner hstart hreachable run machine hrun htape
      obtain rfl := Option.some.inj (hmoment.symm.trans hengine)
      obtain rfl := Option.some.inj hshown
      exact ⟨start, runner, run, machine, hstart, hreachable, hrun, htape, by rw [hview], hshows⟩

end TapeRunner
