import TapeRunner.Proofs.Session.Threshold

/-!
# Louder and quieter runs

The same orders are given to two sessions that differ in the thresholds of their journals, before
observers that see everything but the lines (`Conduct.Blind`) and may take part in any way. As long
as what is asked for can be told (`Order.Measured`) and no session makes too many steps for a line
(`Runner.TellsSteps`), everything comes out alike but the lines, and the quieter journal has those
lines of the louder one that reach its threshold (`Runner.same_but_for_lines`).
-/

set_option autoImplicit false
set_option relaxedAutoImplicit false

namespace TapeRunner

open Activity

/-! ### What is asked for, and by whom -/

/-- Every speed that is set is within the limits, and every program can be measured. -/
def Order.Measured : Order → Prop
  | .start program _ => (program.length : Int) ≤ greatestInteger
  | .setSpeed speed | .pokeSpeed speed | .drain speed =>
    Speed.blocking ≤ speed ∧ speed ≤ Speed.top
  | _ => True

instance : DecidablePred Order.Measured
  | .start program _ => Int.decLe program.length greatestInteger
  | .setSpeed _ | .pokeSpeed _ | .drain _ =>
    @instDecidableAnd _ _ (Int.decLe _ _) (Int.decLe _ _)
  | .stop | .step | .runBlocking | .faster | .slower | .pause | .superSpeed | .shutdown
  | .inject _ | .feed _ | .readInput | .fire _ | .callTimer _ | .cancelTimer _ | .rearm
  | .setClock _ _ | .pokeActive _ | .setMemory _ | .setScript _ _ _ | .clearOutput | .raise _
  | .look => .isTrue trivial

/-- What is decided does not depend on the lines of the journal. -/
def Conduct.Blind : Conduct → Prop
  | .rest | .raise _ => True
  | .give _ next => ∀ outcome runner,
    (∀ threshold lines, next outcome (runner.relogged threshold lines) = next outcome runner) ∧
      (next outcome runner).Blind

theorem Conduct.blind_inTurn (orders : List Order) : (Conduct.inTurn orders).Blind := by
  induction orders with
  | nil => trivial
  | cons order later ih =>
    refine fun outcome _ ↦ ⟨fun _ _ ↦ rfl, ?_⟩
    rcases outcome with error | reply
    · show (if error.isRefusal then Conduct.raise error else .inTurn later).Blind
      split
      · trivial
      · exact ih
    · exact ih

namespace Runner

/-- Observers that are blind to the lines, and ask only for what can be told. -/
structure BlindConduct (conduct : Nat → Runner → Conduct) : Prop where
  same : ∀ position runner threshold lines,
    conduct position (runner.relogged threshold lines) = conduct position runner
  blind : ∀ position runner, (conduct position runner).Blind
  measured : ∀ position runner,
    (conduct position runner).Gives (fun _ ↦ Order.Measured) runner

/-- Whether the steps are too many, as a test that cuts off a run. -/
def tooLong (runner : Runner) : Bool := decide runner.TooLong

theorem tooLong_iff {runner : Runner} : runner.tooLong = true ↔ runner.TooLong :=
  decide_eq_true_iff

end Runner

/-! ### Orders -/

namespace Audience.Follows

open Runner

variable {short long : Audience} (hfollows : short.Follows long) {left right : Runner}
include hfollows

/-- A measured order comes out alike on two runners that are the same but for the lines, unless the
first one gets lost. -/
theorem obey_followsFrom {order : Order} (hmeasured : order.Measured)
    (hleft : ButForLines left right) :
    FollowsFrom (obey short order) (obey long order) left right := by
  have hanswer {Result : Type} {activity other : Action Result}
      (hactivity : FollowsFrom activity other left right) (reply : Result → Reply) :
      FollowsFrom (do return reply (← activity)) (do return reply (← other)) left right :=
    hactivity.bind (fun result _ _ ↦ (Tracks.pure (reply result)).alike) fun result ↦
      Keeps.pure (reply result)
  have hreply {Result : Type} {activity other : Action Result}
      (hactivity : Runner.Follows activity other) (reply : Result → Reply) :
      FollowsFrom (do return reply (← activity)) (do return reply (← other)) left right :=
    hanswer (hactivity.alike hleft) reply
  cases order with
  | start program options =>
    exact hanswer (hfollows.start_followsFrom hmeasured options hleft) fun _ ↦ .nothing
  | stop => exact hreply hfollows.stop fun _ ↦ .nothing
  | step => exact hreply hfollows.step fun _ ↦ .nothing
  | runBlocking => exact hreply hfollows.runBlocking fun _ ↦ .nothing
  | faster =>
    refine hreply (follows_get (fun _ _ _ ↦ rfl) fun runner ↦ ?_) fun _ ↦ .nothing
    exact hfollows.setSpeed (Speed.blocking_le_clamp _) (Speed.clamp_le_top _)
  | slower =>
    refine hanswer ?_ fun _ ↦ .nothing
    obtain ⟨hrecordable, threshold, lines, rfl, -⟩ := id hleft
    refine .get_bind ?_
    show FollowsFrom (if Speed.idle < left.session.speed then _ else _)
      (if Speed.idle < left.session.speed then _ else _) left _
    split
    · next hrunning =>
      have htop := hrecordable.le_top
      refine (hfollows.setSpeed ?_ ?_).alike hleft
      · unfold Speed.idle at hrunning
        unfold Speed.blocking
        omega
      · omega
    · exact (Tracks.pure ()).alike hleft
  | pause => exact hreply (hfollows.setSpeed (by decide) (by decide)) fun _ ↦ .nothing
  | superSpeed => exact hreply (hfollows.setSpeed (by decide) (by decide)) fun _ ↦ .nothing
  | shutdown => exact hreply (hfollows.stop.bind fun _ ↦ follows_detach) fun _ ↦ .nothing
  | setSpeed speed =>
    exact hreply (hfollows.setSpeed hmeasured.1 hmeasured.2) fun _ ↦ .nothing
  | inject instruction => exact hreply (hfollows.inject instruction) .accepted
  | feed content => exact hreply (follows_feed content) fun _ ↦ .nothing
  | readInput => exact hreply follows_readInput .byte
  | fire rounds => exact hreply (hfollows.fire rounds) .calls
  | callTimer index =>
    exact ((follows_timerAt index).bind fun position ↦
      (hfollows.callTimer position).bind fun _ ↦ .pure Reply.nothing).alike hleft
  | cancelTimer index =>
    exact ((follows_timerAt index).bind fun position ↦
      (follows_cancel position).bind fun _ ↦ .pure Reply.nothing).alike hleft
  | rearm => exact hreply hfollows.rearm fun _ ↦ .nothing
  | setClock numerator denominator =>
    refine hreply ?_ fun _ ↦ .nothing
    unfold setClock
    split
    · exact follows_modifyBench _
    · exact .fail _
  | pokeSpeed speed =>
    have hpoked : Runner.Follows (modifySession ({ · with speed }))
        (modifySession ({ · with speed })) :=
      follows_modifySession (fun _ _ _ ↦ hmeasured) fun _ ↦ Nat.le_refl _
    exact hreply hpoked fun _ ↦ .nothing
  | pokeActive active =>
    have hpoked : Runner.Follows (modifySession ({ · with active }))
        (modifySession ({ · with active })) :=
      follows_modifySession (fun _ ↦ And.intro) fun _ ↦ Nat.le_refl _
    exact hreply hpoked fun _ ↦ .nothing
  | setMemory size => exact hreply (follows_modifyBench _) fun _ ↦ .nothing
  | setScript faults crashes rejects => exact hreply (follows_modifyBench _) fun _ ↦ .nothing
  | clearOutput =>
    have hcleared : Runner.Follows (modify ({ · with output := Output.empty }))
        (modify ({ · with output := Output.empty })) :=
      follows_modify_apart (fun _ _ _ ↦ rfl) fun _ ↦ ⟨rfl, rfl, rfl⟩
    exact hreply hcleared fun _ ↦ .nothing
  | raise message => exact (Tracks.fail _).alike hleft
  | look =>
    obtain ⟨-, threshold, lines, rfl, -⟩ := id hleft
    exact .get_bind ((Tracks.pure _).alike hleft)
  | drain speed =>
    have hdrain := hfollows.drainWithin short.patience
    rw [obey, obey, ← hfollows.patience_eq]
    exact ((hfollows.setSpeed hmeasured.1 hmeasured.2).bind fun _ ↦
      hdrain.bind fun _ ↦ .pure Reply.nothing).alike hleft

/-- So does all that whoever is blind to the lines does, if the first run is cut off where the steps
are too many. -/
theorem perform_followsFrom {conduct : Conduct} (hblind : conduct.Blind)
    (hmeasured : conduct.Gives (fun _ ↦ Order.Measured) left) (hleft : ButForLines left right) :
    FollowsFrom (conduct.performUntil tooLong short) (conduct.perform long) left right := by
  induction conduct generalizing left right with
  | rest => exact (Tracks.pure ()).alike hleft
  | raise error => exact (Tracks.fail error).alike hleft
  | give order next ih =>
    rw [Conduct.performUntil, Conduct.perform]
    refine (hfollows.obey_followsFrom hmeasured.1 hleft).caught.bind
      (fun outcome after later hafter ↦ .get_bind ?_)
      fun outcome ↦ Keeps.get_bind fun after hlong ↦ ?_
    · by_cases hlong : after.TooLong
      · rw [if_pos (tooLong_iff.mpr hlong)]
        exact .inr hlong
      · obtain ⟨-, threshold, lines, rfl, -⟩ := id hafter
        obtain ⟨hsame, hlater⟩ := hblind outcome after
        rw [if_neg (mt tooLong_iff.mp hlong), hsame]
        exact ih outcome after hlater (hmeasured.2 outcome after) hafter
    · rw [if_pos (tooLong_iff.mpr hlong)]
      exact hlong

end Audience.Follows

namespace Runner

variable {conduct : Nat → Runner → Conduct} {patience depth : Nat} {left right : Runner}

/-- Observers that are cut off where the steps are too many track those that are not, to whatever
depth orders are given inside of orders. -/
theorem BlindConduct.follows_conductedUntil (hconduct : BlindConduct conduct)
    (patience depth : Nat) :
    (Audience.conductedUntil tooLong conduct patience depth).Follows
      (.conducted conduct patience depth) := by
  induction depth with
  | zero => exact ⟨rfl, fun _ ↦ .giveUp⟩
  | succ depth ih =>
    refine ⟨rfl, fun position ↦ ?_⟩
    have hcounted : Runner.Follows
        (modify fun runner ↦ { runner with hookCalls := runner.hookCalls.modify position (· + 1) })
        (modify fun runner ↦
          { runner with hookCalls := runner.hookCalls.modify position (· + 1) }) :=
      follows_modify_apart (fun _ _ _ ↦ rfl) fun _ ↦ ⟨rfl, rfl, rfl⟩
    refine hcounted.bind fun _ ↦ follows_get_of (fun runner threshold lines ↦ ?_)
      (fun left right hleft ↦ ?_) fun runner hlong ↦ ?_
    · rw [hconduct.same]
    · by_cases hlong : left.TooLong
      · rw [if_pos (tooLong_iff.mpr hlong)]
        exact .inr hlong
      · rw [if_neg (mt tooLong_iff.mp hlong)]
        exact ih.perform_followsFrom (hconduct.blind position left)
          (hconduct.measured position left) hleft
    · rw [if_pos (tooLong_iff.mpr hlong)]
      exact hlong

/-! ### Whole runs -/

/-- At no moment of the orders are the steps of the session too many for a line: cut off at the
first such moment, every order still ends without one. -/
def TellsSteps (conduct : Nat → Runner → Conduct) (patience depth : Nat) :
    List Order → Runner → Prop
  | [], _ => True
  | order :: later, runner =>
    ¬ (runFrom (obey (.conductedUntil tooLong conduct patience depth) order) runner).2.TooLong ∧
      TellsSteps conduct patience depth later
        (runFrom (obey (.conducted conduct patience depth) order) runner).2

instance TellsSteps.decidable (conduct : Nat → Runner → Conduct) (patience depth : Nat)
    (orders : List Order) (runner : Runner) :
    Decidable (TellsSteps conduct patience depth orders runner) :=
  match orders with
  | [] => .isTrue trivial
  | order :: later =>
    have := decidable conduct patience depth later
      (runFrom (obey (.conducted conduct patience depth) order) runner).2
    instDecidableAnd

theorem TellsSteps.of_append {orders later : List Order} {runner : Runner}
    (htells : TellsSteps conduct patience depth (orders ++ later) runner) :
    TellsSteps conduct patience depth orders runner := by
  induction orders generalizing runner with
  | nil => trivial
  | cons order orders ih => exact ⟨htells.1, ih htells.2⟩

/-- The threshold of the journal is that of the start. -/
theorem threshold_obey (cut : Runner → Bool) (conduct : Nat → Runner → Conduct)
    (patience depth : Nat) (order : Order) (runner : Runner) :
    (runFrom (obey (.conductedUntil cut conduct patience depth) order) runner).2.journal.threshold =
      runner.journal.threshold := by
  have hsetUp := upheldThroughout_setUpAs runner
  have hobey := hsetUp.preserves_obey (hsetUp.preserves_react cut conduct patience depth) order
  exact (hobey runner ⟨rfl, rfl, rfl, rfl⟩).last.threshold_eq

theorem threshold_carryOut (conduct : Nat → Runner → Conduct) (patience depth : Nat)
    (orders : List Order) (runner : Runner) :
    (carryOut (.conducted conduct patience depth) orders runner).2.journal.threshold =
      runner.journal.threshold :=
  ((upheldThroughout_setUpAs runner).carryOut conduct patience depth orders
    ⟨rfl, rfl, rfl, rfl⟩).threshold_eq

/-- The second runner is the first one with another threshold and other lines. Those of the higher
threshold are the lines of the lower one that reach it. -/
structure DifferInLines (threshold other : Nat) (left right : Runner) : Prop where
  eq_relogged : right = left.relogged other right.journal.lines
  right_lines : threshold ≤ other →
    right.journal.lines = left.journal.lines.filter fun line ↦ other ≤ line.level.rank
  left_lines : other ≤ threshold →
    left.journal.lines = right.journal.lines.filter fun line ↦ threshold ≤ line.level.rank

theorem ButForLines.differInLines (hsame : ButForLines left right) :
    DifferInLines left.journal.threshold right.journal.threshold left right := by
  obtain ⟨-, threshold, lines, rfl, hagree⟩ := hsame
  exact ⟨rfl, hagree.eq_filter_of_le, hagree.symm.eq_filter_of_le⟩

/-- Fresh runners are the same but for what is written from now on. -/
theorem butForLines_of_fresh {bench : Bench} {hooks : List Hook} {threshold other : Nat}
    {form : Form} {context : Fields}
    (hleft : fresh bench hooks ⟨threshold, form, context, #[]⟩ = .ok left)
    (hright : fresh bench hooks ⟨other, form, context, #[]⟩ = .ok right)
    (hbound : context.Plain) (hhooks : 2 * (hooks.length + 2 : Int) ≤ greatestInteger) :
    ButForLines left right ∧ threshold = left.journal.threshold ∧
      other = right.journal.threshold := by
  have hattended := (founded_of_fresh hleft hbound hhooks).toAttended
  obtain ⟨bus, hbus, rfl⟩ := exists_of_fresh hleft
  obtain ⟨same, hsame, rfl⟩ := exists_of_fresh hright
  obtain rfl : bus = same := Except.ok.inj (hbus.symm.trans hsame)
  have hidle : Speed.blocking ≤ Session.initial.speed ∧ Session.initial.speed ≤ Speed.top := by
    decide
  exact ⟨⟨{ hattended with blocking_le := hidle.1, le_top := hidle.2 }, other, #[], rfl, rfl,
    nofun, nofun⟩, rfl, rfl⟩

section Blind

variable (hconduct : BlindConduct conduct)
include hconduct

/-- An order that never meets too many steps comes out alike: it is the same as the one that is cut
off where it does. -/
theorem alike_obey {order : Order} (hmeasured : order.Measured) (hleft : ButForLines left right)
    (htells : ¬ (runFrom (obey (.conductedUntil tooLong conduct patience depth) order)
      left).2.TooLong) :
    Alike ButForLines (obey (.conducted conduct patience depth) order)
      (obey (.conducted conduct patience depth) order) left right := by
  have hfollows := hconduct.follows_conductedUntil patience depth
  have hself : ButForLines left left := by
    obtain ⟨hrecordable, _, _, -, hagree⟩ := hleft
    exact ⟨hrecordable, _, _, rfl, rfl, hagree.reaches, hagree.reaches⟩
  have huncut := (hfollows.obey_followsFrom hmeasured hself).resolve_right htells
  have hother := (hfollows.obey_followsFrom hmeasured hleft).resolve_right htells
  suffices hsame : runFrom (obey (.conducted conduct patience depth) order) left =
      runFrom (obey (.conductedUntil tooLong conduct patience depth) order) left by
    rwa [Alike, hsame]
  obtain ⟨hrecordable, threshold, lines, hlast, hagree⟩ := huncut.2
  have hthreshold : threshold = (runFrom (obey (.conductedUntil tooLong conduct patience depth)
      order) left).2.journal.threshold := by
    have hkept := threshold_obey (fun _ ↦ false) conduct patience depth order left
    rw [Audience.conductedUntil_never, hlast] at hkept
    exact hkept.trans (threshold_obey tooLong conduct patience depth order left).symm
  subst hthreshold
  refine Prod.ext huncut.1.symm (hlast.trans ?_)
  rw [← hagree.eq_of_threshold]
  rfl

theorem alike_carryOut {orders : List Order} (hmeasured : ∀ order ∈ orders, order.Measured)
    (hleft : ButForLines left right) (htells : TellsSteps conduct patience depth orders left) :
    (carryOut (.conducted conduct patience depth) orders left).1 =
        (carryOut (.conducted conduct patience depth) orders right).1 ∧
      ButForLines (carryOut (.conducted conduct patience depth) orders left).2
        (carryOut (.conducted conduct patience depth) orders right).2 := by
  induction orders generalizing left right with
  | nil => exact ⟨rfl, hleft⟩
  | cons order later ih =>
    obtain ⟨houtcome, hafter⟩ := alike_obey hconduct (hmeasured order List.mem_cons_self) hleft
      htells.1
    obtain ⟨houtcomes, hlast⟩ := ih (fun other hother ↦
      hmeasured other (List.mem_cons_of_mem _ hother)) hafter htells.2
    exact ⟨List.cons_eq_cons.mpr ⟨houtcome, houtcomes⟩, hlast⟩

end Blind

/-- An observer that starts another program when it is called first, makes a step of it and is
refused an instruction, and that raises an error when it is called again. -/
def restartsThenRaises (_ : Nat) (runner : Runner) : Conduct :=
  if runner.hookCalls = #[1] then
    .inTurn [.start "+." ⟨false, false⟩, .step, .inject "[", .stop]
  else
    .raise (.raised "boom")

theorem blindConduct_restartsThenRaises : BlindConduct restartsThenRaises where
  same _ _ _ _ := rfl
  blind _ runner := by
    unfold restartsThenRaises
    split
    · exact Conduct.blind_inTurn _
    · trivial
  measured _ runner := by
    unfold restartsThenRaises
    split
    · exact Conduct.gives_inTurn (fun order horder _ ↦ by revert order; decide) runner
    · trivial

end Runner

end TapeRunner
