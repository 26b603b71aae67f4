import TapeRunner.Proofs.Session.Concert

/-!
# A restart carries nothing over

A start makes any two sessions kindred, whatever their pasts: with the same before them, the runs
are built alike, and nothing of the earlier session, its run and its timers is left that counts
(`Runner.Akin.alike_start`). From there they go on alike, round by round of their timers
(`Runner.Kindred.alike_fire`) and order by order, a further start included
(`Runner.Joint.alike_obey`). So no past can be told from what is answered, told and seen after a
start (`Runner.restart_carries_nothing`).
-/

set_option autoImplicit false
set_option relaxedAutoImplicit false

namespace TapeRunner

open Activity

/-- An order that goes on from what is there: it names no timer by its place, does not wait for
timers and takes back no output. -/
def Order.Onward : Order → Prop
  | .callTimer _ | .cancelTimer _ | .clearOutput | .drain _ => False
  | _ => True

namespace Runner

variable {pasts : Pasts} {past before left right : Runner} {audience other : Audience}

/-! ### Starts -/

theorem free_startedFields (runner : Runner) (program : String) (options : StartOptions) :
    (runner.startedFields program options).Free :=
  Fields.free_cons (by decide) (Fields.free_cons (by decide) (Fields.free_cons (by decide)
    (Fields.free_cons (by decide) (Fields.free_cons (by decide) Fields.free_nil))))

/-- The name of a session is no reason to refuse the line about its start. -/
theorem flaw?_startedFields (left right : Runner) (program : String) (options : StartOptions)
    (form : Form) : (left.startedFields program options).flaw? form =
      (right.startedFields program options).flaw? form := by
  have hsimple (content : String) : (Value.text content).Simple := trivial
  exact (Fields.flaw?_cons_of_simple (hsimple _) form).trans
    (Fields.flaw?_cons_of_simple (hsimple _) form).symm

namespace Akin

variable {program : String} {options : StartOptions} {run : Run}

/-- With the same before them, two runners begin kindred sessions. -/
theorem begun (hakin : Akin past before left right) (options : StartOptions) (run : Run)
    (lines further : Array Line) :
    Kindred ⟨past, before, left.runs.size, right.runs.size⟩
      ((left.begun options run).withLines lines) ((right.begun options run).withLines further) where
  toAkin := { hakin with
    boundLeft := hakin.boundLeft.named _
    boundRight := hakin.boundRight.named _ }
  session_eq := by simp only [Runner.begun, withLines, hakin.bench_eq]
  run := ⟨run, Array.getElem?_push_size, Array.getElem?_push_size⟩
  attached := .inr ⟨rfl, rfl⟩
  supplied := .inr ⟨rfl, rfl⟩
  armed_eq := rfl

/-- So they do if they are asked to start a program that can be built. -/
theorem alike_start (hakin : Akin past before left right) (hpassive : audience.Passive)
    (hother : other.Passive) (hpatience : audience.patience = other.patience)
    (hbuild : left.bench.build program = .ok run) :
    Alike (Kindred ⟨past, before, left.runs.size, right.runs.size⟩)
      (start audience program options) (start other program options) left right := by
  have hsame : right.bench.build program = .ok run := hakin.bench_eq ▸ hbuild
  refine Alike.of_rest (fun _ _ ↦ yields_start hbuild hakin.boundLeft)
    (fun _ _ ↦ yields_start hsame hakin.boundRight) fun lines further ↦ ?_
  have hlogged := (hakin.begun options run lines further).alike_log .info "session.started"
    (left.free_startedFields program options) (right.free_startedFields program options)
    (flaw?_startedFields left right program options)
  refine Alike.bind hlogged fun _ left right hwritten ↦ ?_
  exact (hwritten.alike_tell hpassive hother .started).bind fun _ ↦
    Kindred.lockstep_rearm hpassive hother hpatience

end Akin

/-! ### Rounds of the timers -/

/-- Observers that only listen make no timers. -/
theorem sole_react (hpassive : audience.Passive) (position : Nat) :
    Preserves Sole (audience.react position) :=
  keeps_react_of_passive (hpassive position) fun _ _ hsole ↦ { hsole with }

/-- Two runners are kindred, wherever the runs stand that belong together. -/
def Abreast (past before left right : Runner) : Prop :=
  ∃ place spot, Kindred ⟨past, before, place, spot⟩ left right

namespace Kindred

theorem abreast (hkindred : Kindred pasts left right) :
    Abreast pasts.left pasts.right left right := ⟨pasts.place, pasts.spot, hkindred⟩

variable (hpassive : audience.Passive) (hother : other.Passive)
variable (hpatience : audience.patience = other.patience)
include hpassive hother hpatience

/-- The calls of the current timers are steps of both sessions, or of neither. -/
theorem alike_callTimer (hkindred : Kindred pasts left right) (hone : left.Sole)
    (hanother : right.Sole) {index place : Nat} (hcurrent : left.current = some index)
    (hsame : right.current = some place) :
    Alike (Kindred pasts) (callTimer audience index) (callTimer other place) left right := by
  refine .of_ends (fun _ ↦ hone.ends_callTimer hcurrent) (fun _ ↦ hanother.ends_callTimer hsame) ?_
  rw [hkindred.active_eq, hkindred.speed_eq]
  split
  · exact lockstep_step hpassive hother hpatience left right hkindred
  · exact Lockstep.pure () left right hkindred

/-- Kindred runners of which each has one timer at most make their rounds alike. -/
theorem lockstep_fireRounds (rounds fired : Nat) :
    Lockstep (fun left right ↦ Kindred pasts left right ∧ left.Sole ∧ right.Sole)
      (Timer.fireRounds (·.timers) (callTimer audience) rounds fired)
      (Timer.fireRounds (·.timers) (callTimer other) rounds fired) := by
  induction rounds generalizing fired with
  | zero => exact Lockstep.pure fired
  | succ rounds ih =>
    rintro left right ⟨hkindred, hone, hanother⟩
    cases harmed : right.armed with
    | true =>
      obtain ⟨index, hcurrent, hlive⟩ := hone.exists_live (hkindred.armed_eq.trans harmed)
      obtain ⟨place, hsame, halone⟩ := hanother.exists_live harmed
      refine .of_ends (fun _ ↦ Timer.ends_fireRounds_of_live hlive)
        (fun _ ↦ Timer.ends_fireRounds_of_live halone) ?_
      have hcalled := (hkindred.alike_callTimer hpassive hother hpatience hone hanother hcurrent
        hsame).and (upheldThroughout_sole.preserves_callTimer (sole_react hpassive) index left hone)
          (upheldThroughout_sole.preserves_callTimer (sole_react hother) place right hanother)
      exact hcalled.bind fun _ ↦ ih (fired + 1)
    | false =>
      have hdead (runner : Runner) (hsole : runner.Sole) (hunarmed : runner.armed = false) :
          Timer.live runner.timers = [] := by
        rw [hsole.live_eq, if_neg (Bool.eq_false_iff.mp hunarmed)]
      refine .of_runFrom
        (Timer.runFrom_fireRounds_of_none (hdead left hone (hkindred.armed_eq.trans harmed)))
        (Timer.runFrom_fireRounds_of_none (hdead right hanother harmed)) ?_
      exact Lockstep.pure fired left right ⟨hkindred, hone, hanother⟩

/-! ### Orders -/

/-- A further start brings kindred sessions at other places, or fails on both sides. -/
theorem alike_start (hkindred : Kindred pasts left right) (program : String)
    (options : StartOptions) :
    Alike (Abreast pasts.left pasts.right)
      (start audience program options) (start other program options) left right := by
  cases hbuild : left.bench.build program with
  | error error =>
    have hsame : right.bench.build program = .error error := hkindred.bench_eq ▸ hbuild
    exact .of_ends (fun _ ↦ ends_start_of_unbuilt hbuild) (fun _ ↦ ends_start_of_unbuilt hsame)
      (Lockstep.fail error left right hkindred.abreast)
  | ok run =>
    exact (hkindred.toAkin.alike_start hpassive hother hpatience hbuild).mono
      fun _ _ hbegun ↦ hbegun.abreast

/-- Any order that goes on from what is there is carried out alike. -/
theorem alike_obey (hkindred : Kindred pasts left right) (hone : left.Sole) (hanother : right.Sole)
    {order : Order} (honward : order.Onward) :
    Alike (Abreast pasts.left pasts.right)
      (obey audience order) (obey other order) left right := by
  -- No order but a start moves to other places.
  have hstays {Result : Type} {one same : Action Result}
      (hsame : Alike (Kindred pasts) one same left right) (answer : Result → Reply) :
      Alike (Abreast pasts.left pasts.right)
        (do return answer (← one)) (do return answer (← same)) left right :=
    (hsame.bind fun result ↦ Lockstep.pure (answer result)).mono fun _ _ hlast ↦ hlast.abreast
  have hdone {one same : Action Unit} (hsame : Lockstep (Kindred pasts) one same) :
      Alike (Abreast pasts.left pasts.right)
        (do one; return Reply.nothing) (do same; return Reply.nothing) left right :=
    hstays (hsame left right hkindred) fun _ ↦ Reply.nothing
  cases order with
  | start program options =>
    exact (hkindred.alike_start hpassive hother hpatience program options).bind
      fun _ ↦ Lockstep.pure Reply.nothing
  | stop => exact hdone (lockstep_stop hpassive hother)
  | step => exact hdone (lockstep_step hpassive hother hpatience)
  | runBlocking => exact hdone (lockstep_runBlocking hpassive hother hpatience)
  | faster => exact hdone (lockstep_faster hpassive hother hpatience)
  | slower => exact hdone (lockstep_slower hpassive hother hpatience)
  | pause => exact hdone (lockstep_setSpeed hpassive hother hpatience _)
  | superSpeed => exact hdone (lockstep_setSpeed hpassive hother hpatience _)
  | shutdown => exact hdone (lockstep_shutdown hpassive hother)
  | setSpeed speed => exact hdone (lockstep_setSpeed hpassive hother hpatience speed)
  | inject instruction =>
    exact hstays (lockstep_inject hpassive hother instruction left right hkindred) .accepted
  | feed content => exact hdone (lockstep_feed content)
  | readInput => exact hstays (lockstep_readInput left right hkindred) .byte
  | fire rounds =>
    have hrounds := lockstep_fireRounds hpassive hother hpatience rounds 0 left right
      ⟨hkindred, hone, hanother⟩
    exact hstays (hrounds.mono fun _ _ ↦ And.left) .calls
  | rearm => exact hdone (lockstep_rearm hpassive hother hpatience)
  | setClock numerator denominator => exact hdone (lockstep_setClock numerator denominator)
  | pokeSpeed speed =>
    exact hdone fun _ _ hkindred ↦ hkindred.alike_modifySession (fun _ _ ↦ rfl) fun _ ↦ rfl
  | pokeActive active =>
    exact hdone fun _ _ hkindred ↦ hkindred.alike_modifySession (fun _ _ ↦ rfl) fun _ ↦ rfl
  | setMemory memorySize => exact hdone (lockstep_modifyBench _)
  | setScript faults crashes rejects => exact hdone (lockstep_modifyBench _)
  | raise message => exact Lockstep.fail _ left right hkindred.abreast
  | look => exact (lockstep_look left right hkindred).mono fun _ _ hlast ↦ hlast.abreast
  | callTimer | cancelTimer | clearOutput | drain => exact honward.elim

end Kindred

section Orders

variable (hpassive : audience.Passive) (hother : other.Passive)
include hpassive hother

/-- Where the first orders lead abreast, the later ones go on from there. -/
theorem abreast_carryOut_cons {order : Order} {later : List Order} (hone : left.Sole)
    (hanother : right.Sole)
    (hobeyed : Alike (Abreast past before) (obey audience order) (obey other order) left right)
    (hlater : ∀ left right, Abreast past before left right → left.Sole → right.Sole →
      (carryOut audience later left).1 = (carryOut other later right).1 ∧
        Abreast past before (carryOut audience later left).2 (carryOut other later right).2) :
    let ended := carryOut audience (order :: later) left
    let same := carryOut other (order :: later) right
    ended.1 = same.1 ∧ Abreast past before ended.2 same.2 := by
  have hleft := upheldThroughout_sole.preserves_obey (sole_react hpassive) order left hone
  have hright := upheldThroughout_sole.preserves_obey (sole_react hother) order right hanother
  obtain ⟨houtcomes, hlast⟩ := hlater _ _ hobeyed.2 hleft.last hright.last
  simp only [carryOut, hobeyed.1, houtcomes, true_and]
  exact hlast

/-- Orders are carried out alike, one after the other. -/
theorem Abreast.carryOut (habreast : Abreast past before left right) (hone : left.Sole)
    (hanother : right.Sole) (hpatience : audience.patience = other.patience) {orders : List Order}
    (honward : ∀ order ∈ orders, order.Onward) :
    let ended := carryOut audience orders left
    let same := carryOut other orders right
    ended.1 = same.1 ∧ Abreast past before ended.2 same.2 := by
  induction orders generalizing left right with
  | nil => exact ⟨rfl, habreast⟩
  | cons order later ih =>
    obtain ⟨place, spot, hkindred⟩ := habreast
    have hobeyed := hkindred.alike_obey hpassive hother hpatience hone hanother
      (honward order List.mem_cons_self)
    refine abreast_carryOut_cons hpassive hother hone hanother hobeyed ?_
    exact fun left right hlast hsole hsame ↦
      ih hlast hsole hsame fun order hlater ↦ honward order (List.mem_cons_of_mem _ hlater)

end Orders

/-! ### Pasts -/

/-- Since two moments, nothing tells two sessions apart but their numbers: not the sessions
themselves, their engines and supplies, whether they are armed, nor what has been written and
told. -/
structure Indistinguishable (past before left right : Runner) : Prop where
  session_eq : left.session = { right.session with number := left.session.number }
  run?_eq : left.run? = right.run?
  supply?_eq : left.supply? = right.supply?
  armed_eq : left.armed = right.armed
  written : ∃ bytes, left.output.bytes = past.output.bytes ++ bytes ∧
    right.output.bytes = before.output.bytes ++ bytes
  told : ∃ news further, left.recorded = past.recorded ++ news ∧
    right.recorded = before.recorded ++ further ∧
      news.map Event.unnumbered = further.map Event.unnumbered

theorem Abreast.indistinguishable (habreast : Abreast past before left right) :
    Indistinguishable past before left right := by
  obtain ⟨_, _, hkindred⟩ := habreast
  exact { hkindred with
    run?_eq := hkindred.run?_eq
    supply?_eq := hkindred.supply?_eq }

/-- Reachable runners with the same before them are akin, if their journals are set up alike. -/
theorem akin_of_reachable {bench surroundings : Bench} {hooks others : List Hook}
    {journal : Journal} {origin source : Runner} (horigin : fresh bench hooks journal = .ok origin)
    (hsource : fresh surroundings others journal = .ok source) (hbound : journal.context.Plain)
    (hhooks : 2 * (hooks.length + 2 : Int) ≤ greatestInteger)
    (hothers : 2 * (others.length + 2 : Int) ≤ greatestInteger)
    (hleft : origin.Reachable left) (hright : source.Reachable right)
    (hbench : left.bench = right.bench) : Akin left right left right := by
  have hsettings (bench : Bench) (hooks : List Hook) {start last : Runner}
      (hstart : fresh bench hooks journal = .ok start) (hreachable : start.Reachable last) :
      last.journal.threshold = journal.threshold ∧ last.journal.form = journal.form := by
    have hsetUp := (upheldThroughout_setUpAs start).reachable hreachable ⟨rfl, rfl, rfl, rfl⟩
    obtain ⟨_, -, rfl⟩ := exists_of_fresh hstart
    exact ⟨hsetUp.threshold_eq, hsetUp.form_eq⟩
  obtain ⟨hthreshold, hform⟩ := hsettings bench hooks horigin hleft
  obtain ⟨hsame, halike⟩ := hsettings surroundings others hsource hright
  have hone := upheldThroughout_founded.reachable hleft (founded_of_fresh horigin hbound hhooks)
  have hanother := upheldThroughout_founded.reachable hright
    (founded_of_fresh hsource hbound hothers)
  exact {
    boundLeft := hone.bound
    boundRight := hanother.bound
    heardLeft := hone.heard
    heardRight := hanother.heard
    recorderLeft := hone.recorder
    recorderRight := hanother.recorder
    threshold_eq := hthreshold.trans hsame.symm
    form_eq := hform.trans halike.symm
    bench_eq := hbench
    written := ⟨#[], Array.append_empty.symm, Array.append_empty.symm⟩
    told := ⟨#[], #[], Array.append_empty.symm, Array.append_empty.symm, rfl⟩ }

/-- A start carries nothing over: from any two moments of any two runs with the same before them,
with whatever programs, speeds, faults and timers in the past, it is the beginning of the same. All
that is asked from then on is answered or refused alike, and what can be seen of the sessions is the
same but for their numbers. -/
theorem restart_carries_nothing {bench surroundings : Bench} {hooks others : List Hook}
    {journal : Journal} {origin source : Runner} (horigin : fresh bench hooks journal = .ok origin)
    (hsource : fresh surroundings others journal = .ok source) (hbound : journal.context.Plain)
    (hhooks : 2 * (hooks.length + 2 : Int) ≤ greatestInteger)
    (hothers : 2 * (others.length + 2 : Int) ≤ greatestInteger)
    (hleft : origin.Reachable left) (hright : source.Reachable right)
    (hbench : left.bench = right.bench) (hpassive : audience.Passive) (hother : other.Passive)
    (hpatience : audience.patience = other.patience) {program : String} {run : Run}
    (hbuild : left.bench.build program = .ok run) (options : StartOptions) {orders : List Order}
    (honward : ∀ order ∈ orders, order.Onward) :
    let ended := carryOut audience (.start program options :: orders) left
    let same := carryOut other (.start program options :: orders) right
    ended.1 = same.1 ∧ Indistinguishable left right ended.2 same.2 := by
  -- Of the pasts, nothing is needed but what they have left in the journal and which timer counts.
  have hakin := akin_of_reachable horigin hsource hbound hhooks hothers hleft hright hbench
  have hone := upheldThroughout_sole.reachable hleft (sole_of_fresh horigin)
  have hanother := upheldThroughout_sole.reachable hright (sole_of_fresh hsource)
  have hbegun : Alike (Abreast left right) (obey audience (.start program options))
      (obey other (.start program options)) left right :=
    ((hakin.alike_start hpassive hother hpatience hbuild).bind
      fun _ ↦ Lockstep.pure Reply.nothing).mono fun _ _ hlast ↦ hlast.abreast
  have hcarried := abreast_carryOut_cons hpassive hother hone hanother hbegun
    fun _ _ habreast hsole hsame ↦
      habreast.carryOut hpassive hother hsole hsame hpatience honward
  exact ⟨hcarried.1, hcarried.2.indistinguishable⟩

/-- After a fault, and after an echo that was stopped, what is fed to a program and stepped by a
timer comes out alike. -/
theorem restart_carries_nothing_fault_echo :
    ∃ start left right, fresh ⟨.tape, 2, "", 0, .empty⟩ [] .initial = .ok start ∧
      start.Reachable left ∧ start.Reachable right ∧
      left.session.status = some (.failed .underflow) ∧ left.armed = false ∧
      right.session.active = false ∧ right.output.bytes = #[65] ∧ right.runs.size = 2 ∧
      let audience := Audience.conducted (fun _ _ ↦ .rest) 10 1
      let orders := [.start ",." ⟨true, false⟩, .feed "B", .fire 3, .readInput]
      let ended := carryOut audience orders left
      let same := carryOut audience orders right
      ended.1 = same.1 ∧ Indistinguishable left right ended.2 same.2 := by
  obtain ⟨start, hstart⟩ :
      ∃ start, fresh ⟨.tape, 2, "", 0, .empty⟩ [] .initial = .ok start := ⟨_, rfl⟩
  let audience := Audience.conducted (fun _ _ ↦ .rest) 10 1
  let left := (runFrom ((Conduct.inTurn
    [.start "<" ⟨true, false⟩, .fire 1]).perform audience) start).2
  let right := (runFrom ((Conduct.inTurn [.start "+" ⟨true, false⟩, .start ",." ⟨false, false⟩,
    .feed "A", .superSpeed, .stop]).perform audience) start).2
  have hmoments : (decide (left.session.status = some (.failed .underflow) ∧ left.armed = false ∧
      right.session.active = false ∧ right.output.bytes = #[65] ∧ right.runs.size = 2 ∧
      left.bench = ⟨.tape, 2, "", 0, .empty⟩ ∧ right.bench = left.bench)) = true := by
    cases hstart
    decide +kernel
  obtain ⟨hfault, hunarmed, hinactive, hwritten, hruns, hbench, hsame⟩ :=
    of_decide_eq_true hmoments
  have hleft : start.Reachable left := reachable_perform _ 10 1 _ start
  have hright : start.Reachable right := reachable_perform _ 10 1 _ start
  have hpassive : audience.Passive := passive_conducted_rest 10 0
  have hbuild : left.bench.build ",." =
      .ok ⟨",.", .tape (.load ",." 2), .ofText ""⟩ := by
    rw [hbench]
    rfl
  exact ⟨start, left, right, hstart, hleft, hright, hfault, hunarmed, hinactive, hwritten, hruns,
    restart_carries_nothing hstart hstart Fields.plain_nil (by decide) (by decide) hleft hright
      hsame.symm hpassive hpassive rfl hbuild ⟨true, false⟩ (by simp [Order.Onward])⟩

end Runner

end TapeRunner
