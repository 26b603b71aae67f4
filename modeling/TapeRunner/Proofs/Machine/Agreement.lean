import TapeRunner.Proofs.Machine.Simulation

/-!
# A machine halts as its program does

Unless the behaviour of a program comes to an end, the machine makes any number of steps inside it
(`Placed.behaviour_or_goes`). The machine that has come to a halt has made its last step, so the
behaviour has an end, and it is the one that the machine came to: on a text without unmatched
brackets the counting machine and the nested program halt alike
(`Program.behaviour_iff_halts`).
-/

set_option autoImplicit false
set_option relaxedAutoImplicit false

namespace TapeRunner

/-- So many steps succeed. -/
def Rig.Goes (rig : Rig) (count : Nat) : Prop := ∃ last, rig.stepTimes count = (none, last)

namespace Travels

variable {code : Array Char} {marks : Array Mark} {start stop : Nat} {store next : Store}
variable {count further : Nat}

/-- A machine that goes on from the end of a journey goes on from its beginning, and the steps of
the journey count as well. -/
theorem goes (hway : Travels code marks start stop store count none next)
    (hgoes : (next.rig code marks stop).Goes further) {total : Nat}
    (htotal : total ≤ count + further) : (store.rig code marks start).Goes total := by
  obtain ⟨last, hlast⟩ := hgoes
  have hwhole := (Rig.stepTimes_add_of_eq hway.2 further).trans hlast
  rw [show count + further = total + (count + further - total) by omega] at hwhole
  exact Rig.exists_stepTimes_of_add hwhole

end Travels

namespace Behaviour

/-- A behaviour comes to an end from a store. -/
def Ends (behaviour : Behaviour) (store : Store) : Prop :=
  ∃ count fault? last, behaviour store count fault? last

variable {first second : Behaviour} {store next last : Store} {count : Nat} {fault : Fault}

theorem Ends.of_fault (hfirst : first store count (some fault) last) :
    (first.andThen second).Ends store :=
  ⟨count, some fault, last, .inl ⟨fault, rfl, hfirst⟩⟩

theorem Ends.of_andThen (hfirst : first store count none next) (hsecond : second.Ends next) :
    (first.andThen second).Ends store := by
  obtain ⟨further, fault?, last, hlast⟩ := hsecond
  exact ⟨count + further, fault?, last, .inr ⟨count, further, next, rfl, hfirst, hlast⟩⟩

end Behaviour

namespace Placed

variable {code : Array Char} {marks : Array Mark} {start : Nat}

/-- A loop whose body either ends or goes on either ends or goes on. The induction is on the number
of steps: every turn that ends makes at least the step of its closing bracket. -/
theorem repeated_ends_or_goes {body rest : Program}
    (hplaced : Placed (.loop body rest) code marks start)
    (hbody : ∀ store : Store, store.Inside → ∀ count,
      body.behaviour.Ends store ∨ (store.rig code marks (start + 1)).Goes count)
    (count : Nat) (store : Store) (hinside : store.Inside) :
    (Behaviour.Repeated (body.behaviour.andThen .pass)).Ends store ∨
      (store.rig code marks (turnOf store start (start + 1 + body.length))).Goes count := by
  induction count generalizing store with
  | zero => exact .inr ⟨_, rfl⟩
  | succ count ih =>
    by_cases hcell : store.cell = 0
    · exact .inl ⟨0, none, store, .leave hcell⟩
    rw [turnOf, if_neg hcell]
    rcases hbody store hinside (count + 1) with ⟨before, fault?, next, hnext⟩ | hgoes
    · rcases fault? with _ | fault
      · have hway := hplaced.loop.2.2.1.travels hinside hnext
        have hround := hway.trans (.of_step hway.1 (hplaced.step_close next hway.1))
        rcases ih next hway.1 with ⟨after, fault?, last, hlast⟩ | hgoes
        · have hturn : (body.behaviour.andThen .pass) store (before + 1) none next :=
            .inr ⟨before, 1, next, rfl, hnext, rfl, rfl, rfl⟩
          exact .inl ⟨before + 1 + after, fault?, last, .turn hcell hturn hlast⟩
        · exact .inr (hround.goes hgoes (by omega))
      · exact .inl ⟨before, some fault, next, .fault hcell (.inl ⟨fault, rfl, hnext⟩)⟩
    · exact .inr hgoes

/-- The behaviour of a program comes to an end, or the machine makes any number of steps. -/
theorem behaviour_ends_or_goes {program : Program} (hplaced : Placed program code marks start)
    (store : Store) (hinside : store.Inside) (count : Nat) :
    program.behaviour.Ends store ∨ (store.rig code marks start).Goes count := by
  induction program generalizing start store count with
  | done => exact .inl ⟨0, none, store, rfl, rfl, rfl⟩
  | symbol character plain rest ih =>
    cases hact : store.act character with
    | error fault =>
      have hfaulty : Behaviour.act character store 0 (some fault) store := by
        simp [Behaviour.act, hact]
      exact .inl (.of_fault hfaulty)
    | ok next =>
      have hnext : Behaviour.act character store 1 none next := by simp [Behaviour.act, hact]
      have hway := hplaced.travels_act hinside hnext
      rcases ih hplaced.symbol.2 next hway.1 count with hends | hgoes
      · exact .inl (.of_andThen hnext hends)
      · exact .inr (hway.goes hgoes (by omega))
  | loop body rest ihBody ihRest =>
    obtain ⟨-, -, hbody, -, -, hrest⟩ := hplaced.loop
    have hopen := Travels.of_step hinside (hplaced.step_open store hinside)
    have hpass : Behaviour.pass store 1 none store := ⟨rfl, rfl, rfl⟩
    rcases hplaced.repeated_ends_or_goes (fun next hnext ↦ ihBody hbody next hnext) count store
      hinside with ⟨before, fault?, next, hturns⟩ | hgoes
    · rcases fault? with _ | fault
      · have hway := Travels.of_repeated hplaced.step_close (fun hin ↦ hbody.travels hin) hinside
          hturns
        rcases ihRest hrest next hway.1 count with hends | hgoes
        · exact .inl (.of_andThen hpass (.of_andThen hturns hends))
        · exact .inr ((hopen.trans hway).goes hgoes (by omega))
      · exact .inl (.of_andThen hpass (.of_fault hturns))
    · exact .inr (hopen.goes hgoes (by omega))

end Placed

/-! ### The agreement -/

namespace Program

variable {store last : Store} {count : Nat} {fault? : Option Fault}

/-- A machine on the text of a program. -/
def rigOn (program : Program) (store : Store) : Rig :=
  store.rig program.text.toArray (bracketMarks program.text) 0

/-- The machine comes to the halt that the program comes to. -/
theorem halts_of_behaviour (program : Program) (hinside : store.Inside)
    (hruns : program.behaviour store count fault? last) :
    ∃ halted, (program.rigOn store).Halts count fault? halted ∧ halted.store = last := by
  obtain ⟨-, hway⟩ := (Placed.whole program).travels hinside hruns
  rcases fault? with _ | fault
  · refine ⟨_, ⟨hway, ?_⟩, rfl⟩
    simp [Store.rig, Machine.atEnd]
  · obtain ⟨place, hplace, hsteps, hfault⟩ := hway
    refine ⟨_, ⟨hsteps, ?_, hfault⟩, rfl⟩
    simpa [Store.rig, Machine.atEnd] using hplace

/-- The program comes to the halt that the machine comes to. -/
theorem behaviour_of_halts (program : Program) (hinside : store.Inside) {halted : Rig}
    (hhalts : (program.rigOn store).Halts count fault? halted) :
    program.behaviour store count fault? halted.store := by
  rcases (Placed.whole program).behaviour_ends_or_goes store hinside (count + 1) with hends | hgoes
  · obtain ⟨count', fault'?, last, hruns⟩ := hends
    obtain ⟨halted', hhalts', rfl⟩ := program.halts_of_behaviour hinside hruns
    obtain ⟨rfl, rfl, rfl⟩ := hhalts.unique hhalts'
    exact hruns
  · obtain ⟨next, hnext⟩ := hgoes
    have hmore := hhalts.le_count hnext
    omega

/-- A text without an unmatched bracket is the text of a program, and a machine loaded with it halts
exactly as the program does: after as many steps, at the end or with the same fault, and with the
same tape, head, pending input and output. -/
theorem behaviour_iff_halts (code : String) (size : Nat) (supply : Supply) (hsize : 0 < size)
    (hmatched : unmatchedPositions (bracketMarks code.toList) = []) :
    ∃ program, parse? code.toList = some program ∧
      ∀ count fault? last, program.behaviour (.blank size supply) count fault? last ↔
        ∃ halted, Rig.Halts ⟨.load code size, supply, .empty⟩ count fault? halted ∧
          halted.store = last := by
  obtain ⟨program, hspelled⟩ := (unmatchedPositions_eq_nil_iff code.toList).mp hmatched
  have hrig : (⟨.load code size, supply, .empty⟩ : Rig) = program.rigOn (.blank size supply) := by
    rw [rigOn, hspelled]
    rfl
  have hinside := Store.inside_blank hsize supply
  refine ⟨program, (parse?_eq_some_iff _ _).mpr hspelled, fun count fault? last ↦ ?_⟩
  rw [hrig]
  constructor
  · exact program.halts_of_behaviour hinside
  · rintro ⟨halted, hhalts, rfl⟩
    exact program.behaviour_of_halts hinside hhalts

/-- Two loops, one inside the other, that read what they count. -/
theorem behaviour_iff_halts_nested : 0 < 2 ∧
    unmatchedPositions (bracketMarks "+[>,[.-]<-]".toList) = [] ∧
    ∃ program, parse? "+[>,[.-]<-]".toList = some program ∧
      ∀ count fault? last, program.behaviour (.blank 2 (.ofText "ab")) count fault? last ↔
        ∃ halted, Rig.Halts ⟨.load "+[>,[.-]<-]" 2, .ofText "ab", .empty⟩ count fault? halted ∧
          halted.store = last :=
  have hmatched : unmatchedPositions (bracketMarks "+[>,[.-]<-]".toList) = [] := by
    decide +kernel
  ⟨Nat.zero_lt_two, hmatched,
    behaviour_iff_halts "+[>,[.-]<-]" 2 (.ofText "ab") Nat.zero_lt_two hmatched⟩

end Program

end TapeRunner
