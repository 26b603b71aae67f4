import TapeRunner.Proofs.Activity

/-!
# Rounds of timers

A round calls, in the order of creation and once each, the timers that were live when it began and
still are when their turn comes, until one of the calls ends in an error (`Timer.Round`). Rounds
follow one another, each over the timers that are live where the one before it has ended, and what
is answered is the number of their turns (`Timer.Firing`). That is what firing is, whatever the
calls do (`Timer.ends_fire`); and to fire some rounds and then some more is to fire all of them
(`Timer.fire_add`).

Where calls only add timers and cancel them (`Timer.Grown`), no timer has a turn after its
cancellation (`Timer.Firing.not_isCancelled`).
-/

set_option autoImplicit false
set_option relaxedAutoImplicit false

namespace TapeRunner

open Activity

namespace Timer

variable {State Task : Type}

/-! ### Timers that are only added and cancelled -/

/-- The timer at a position is there and has been cancelled. -/
def IsCancelled (timers : Array (Timer Task)) (position : Nat) : Prop :=
  ∃ timer, timers[position]? = some timer ∧ timer.cancelled = true

/-- Every timer is still there, with its task and its interval, and cancelled if it was before. -/
def Grown (timers later : Array (Timer Task)) : Prop :=
  ∀ (position : Nat) (timer : Timer Task), timers[position]? = some timer →
    ∃ same : Timer Task, later[position]? = some same ∧ same.task = timer.task ∧
      same.interval = timer.interval ∧ (timer.cancelled = true → same.cancelled = true)

namespace Grown

variable {timers middle later : Array (Timer Task)}

theorem refl (timers : Array (Timer Task)) : Grown timers timers :=
  fun _ timer htimer ↦ ⟨timer, htimer, rfl, rfl, id⟩

theorem trans (hfirst : Grown timers middle) (hsecond : Grown middle later) :
    Grown timers later := by
  intro position timer htimer
  obtain ⟨same, hsame, htask, hinterval, hcancelled⟩ := hfirst position timer htimer
  obtain ⟨last, hlast, hlastTask, hlastInterval, hlastCancelled⟩ := hsecond position same hsame
  exact ⟨last, hlast, hlastTask.trans htask, hlastInterval.trans hinterval,
    hlastCancelled ∘ hcancelled⟩

theorem push (timers : Array (Timer Task)) (timer : Timer Task) :
    Grown timers (timers.push timer) := by
  intro position found hfound
  refine ⟨found, ?_, rfl, rfl, id⟩
  rw [Array.getElem?_push_lt (Array.getElem?_eq_some_iff.mp hfound).1]
  exact congrArg some (Array.getElem?_eq_some_iff.mp hfound).2

theorem every {interval : Float} {task : Task}
    (hmade : Timer.every timers interval task = .ok later) : Grown timers later := by
  unfold Timer.every at hmade
  split at hmade
  · exact nomatch hmade
  · cases hmade
    exact .push timers _

theorem cancel (timers : Array (Timer Task)) (index : Nat) :
    Grown timers (Timer.cancel timers index) := by
  intro position timer htimer
  rw [Timer.cancel, Array.getElem?_modify, htimer]
  split
  · exact ⟨_, rfl, rfl, rfl, fun _ ↦ rfl⟩
  · exact ⟨timer, rfl, rfl, rfl, id⟩

/-- What is live was not cancelled before. -/
theorem not_isCancelled (hgrown : Grown timers later) {position : Nat}
    (hlive : isLive later position = true) : ¬ IsCancelled timers position := by
  rintro ⟨timer, htimer, hcancelled⟩
  obtain ⟨same, hsame, -, -, hstays⟩ := hgrown position timer htimer
  simp [isLive, hsame, hstays hcancelled] at hlive

end Grown

/-! ### Rounds -/

/-- The turn of a timer in a round: its position, the states before and after its call, and how the
call ended. -/
structure Turn (State : Type) where
  position : Nat
  before : State
  ended : Except Halt Unit
  after : State

/-- A round: the states before and after, the turns taken, and how it ended. -/
structure Lap (State : Type) where
  before : State
  turns : List (Turn State)
  ended : Except Halt Unit
  after : State

/-- Items follow one another from one state to another: each begins in the state that the one before
it has left. -/
def Consecutive {Item : Type} (before after : Item → State) : State → List Item → State → Prop
  | first, [], last => last = first
  | first, item :: later, last =>
    before item = first ∧ Consecutive before after (after item) later last

/-- The state in which the turn of a position comes: the one that the turns before it have left. -/
def stateAt : State → List (Turn State) → Nat → State
  | first, [], _ => first
  | first, turn :: later, position =>
    if turn.position < position then stateAt turn.after later position else first

/-- All items end regularly, or the last one and none before it ends early. -/
def EndsWith {Item Result : Type} (endOf : Item → Except Halt Unit) (items : List Item) :
    Except Halt Result → Prop
  | .ok _ => ∀ item ∈ items, endOf item = .ok ()
  | .error halt => ∃ earlier final, items = earlier ++ [final] ∧
      (∀ item ∈ earlier, endOf item = .ok ()) ∧ endOf final = .error halt

variable (timersOf : State → Array (Timer Task)) (call : Nat → Activity State Unit)

/-- A round over the positions listed. Its turns follow one another, in the order of the positions.
A position has its turn just if it is listed, its timer is live when its turn comes, and no earlier
turn has ended early. -/
structure Round (listed : List Nat) (lap : Lap State) : Prop where
  consecutive : Consecutive Turn.before Turn.after lap.before lap.turns lap.after
  ordered : lap.turns.Pairwise fun turn later ↦ turn.position < later.position
  ran : ∀ turn ∈ lap.turns,
    turn.before = stateAt lap.before lap.turns turn.position ∧
      runFrom (call turn.position) turn.before = (turn.ended, turn.after)
  called_iff : ∀ position, (∃ turn ∈ lap.turns, turn.position = position) ↔
    position ∈ listed ∧
      isLive (timersOf (stateAt lap.before lap.turns position)) position = true ∧
      ∀ turn ∈ lap.turns, turn.position < position → turn.ended = .ok ()
  endsWith : EndsWith Turn.ended lap.turns lap.ended

/-- Rounds of firing. They follow one another, each over the timers that are live when it begins. If
firing ends regularly, there are as many rounds as were asked for, and the answer is how many turns
they had; if it ends early, the last round ended so. -/
structure Firing (rounds : Nat) (first : State) (laps : List (Lap State))
    (outcome : Except Halt Nat) (last : State) : Prop where
  consecutive : Consecutive Lap.before Lap.after first laps last
  round : ∀ lap ∈ laps, Round timersOf call (live (timersOf lap.before)) lap
  endsWith : EndsWith Lap.ended laps outcome
  length_le : laps.length ≤ rounds
  answer : ∀ fired, outcome = .ok fired →
    laps.length = rounds ∧ fired = (laps.flatMap Lap.turns).length

section Consecutive

variable {Item : Type} {before after : Item → State} {first middle last : State}
variable {items later : List Item}

theorem Consecutive.append (hitems : Consecutive before after first items middle)
    (hlater : Consecutive before after middle later last) :
    Consecutive before after first (items ++ later) last := by
  induction items generalizing first with
  | nil => exact (show middle = first from hitems) ▸ hlater
  | cons item rest ih => exact ⟨hitems.1, ih hitems.2⟩

/-- Where every item lets the timers only be added and cancelled, so do all of them together, and
whatever comes between two items. -/
theorem Consecutive.grown {timersOf : State → Array (Timer Task)}
    (hitems : Consecutive before after first items last)
    (hgrown : ∀ item ∈ items, Grown (timersOf (before item)) (timersOf (after item))) :
    (∀ item ∈ items, Grown (timersOf first) (timersOf (before item))) ∧
      items.Pairwise fun item later ↦ Grown (timersOf (after item)) (timersOf (before later)) := by
  induction items generalizing first with
  | nil => exact ⟨fun _ hnone ↦ absurd hnone List.not_mem_nil, .nil⟩
  | cons item rest ih =>
    obtain ⟨rfl, hrest⟩ := hitems
    obtain ⟨hhead, htail⟩ := List.forall_mem_cons.mp hgrown
    obtain ⟨hreached, hpairs⟩ := ih hrest htail
    exact ⟨List.forall_mem_cons.mpr
      ⟨.refl _, fun other hother ↦ hhead.trans (hreached other hother)⟩, .cons hreached hpairs⟩

/-- Stretches that follow one another, each of items that follow one another, are one stretch. -/
theorem Consecutive.flatMap {Outer : Type} {start finish : Outer → State}
    {inner : Outer → List Item} {outer : List Outer}
    (houter : Consecutive start finish first outer last)
    (hinner : ∀ stretch ∈ outer,
      Consecutive before after (start stretch) (inner stretch) (finish stretch)) :
    Consecutive before after first (outer.flatMap inner) last := by
  induction outer generalizing first with
  | nil => exact houter
  | cons stretch rest ih =>
    obtain ⟨rfl, hrest⟩ := houter
    obtain ⟨hhead, htail⟩ := List.forall_mem_cons.mp hinner
    exact hhead.append (ih hrest htail)

end Consecutive

section EndsWith

variable {Item Result : Type} {endOf : Item → Except Halt Unit} {item : Item} {items : List Item}

theorem EndsWith.single {halt : Halt} (hitem : endOf item = .error halt) :
    EndsWith endOf [item] (.error halt : Except Halt Result) :=
  ⟨[], item, rfl, fun _ hnone ↦ absurd hnone List.not_mem_nil, hitem⟩

theorem EndsWith.cons {outcome : Except Halt Result} (hitem : endOf item = .ok ())
    (hitems : EndsWith endOf items outcome) : EndsWith endOf (item :: items) outcome := by
  cases outcome with
  | ok result => exact List.forall_mem_cons.mpr ⟨hitem, hitems⟩
  | error halt =>
    obtain ⟨earlier, final, rfl, hearlier, hfinal⟩ := hitems
    exact ⟨item :: earlier, final, rfl, List.forall_mem_cons.mpr ⟨hitem, hearlier⟩, hfinal⟩

end EndsWith

/-- Nothing that comes at or behind a position changes the state in which its turn comes. -/
theorem stateAt_eq_first {first : State} {turns : List (Turn State)} {position : Nat}
    (hbehind : ∀ turn ∈ turns, position ≤ turn.position) :
    stateAt first turns position = first := by
  cases turns with
  | nil => rfl
  | cons turn later => exact if_neg (Nat.not_lt.mpr (hbehind turn List.mem_cons_self))

namespace Round

variable {timersOf : State → Array (Timer Task)} {call : Nat → Activity State Unit}
variable {position : Nat} {listed : List Nat} {lap : Lap State} {first middle last : State}

/-- Only what is listed has a turn. -/
theorem mem_listed (hround : Round timersOf call listed lap) {turn : Turn State}
    (hturn : turn ∈ lap.turns) : turn.position ∈ listed :=
  ((hround.called_iff turn.position).mp ⟨turn, hturn, rfl⟩).1

/-- A timer that was made after the round began has no turn in it. -/
theorem position_lt (hround : Round timersOf call (live (timersOf lap.before)) lap)
    {turn : Turn State} (hturn : turn ∈ lap.turns) :
    turn.position < (timersOf lap.before).size :=
  List.mem_range.mp (List.mem_filter.mp (hround.mem_listed hturn)).1

/-- What has a turn is live at its call. -/
theorem isLive_before (hround : Round timersOf call listed lap) {turn : Turn State}
    (hturn : turn ∈ lap.turns) : isLive (timersOf turn.before) turn.position = true := by
  rw [(hround.ran turn hturn).1]
  exact ((hround.called_iff turn.position).mp ⟨turn, hturn, rfl⟩).2.1

/-- Nothing is listed. -/
theorem nil (timersOf : State → Array (Timer Task)) (call : Nat → Activity State Unit)
    (first : State) : Round timersOf call [] ⟨first, [], .ok (), first⟩ where
  consecutive := rfl
  ordered := .nil
  ran := fun _ hnone ↦ absurd hnone List.not_mem_nil
  called_iff := fun _ ↦ by simp
  endsWith := fun _ hnone ↦ absurd hnone List.not_mem_nil

/-- A timer that is not live when its turn comes has none. -/
theorem skip (hdead : ¬ isLive (timersOf lap.before) position = true)
    (hbelow : ∀ other ∈ listed, position < other) (hround : Round timersOf call listed lap) :
    Round timersOf call (position :: listed) lap :=
  { hround with
    called_iff := fun other ↦ by
      rw [hround.called_iff other, List.mem_cons]
      refine and_congr_left fun ⟨hlive, _⟩ ↦ (or_iff_right ?_).symm
      rintro rfl
      have hbehind : ∀ turn ∈ lap.turns, other ≤ turn.position := fun turn hturn ↦
        Nat.le_of_lt (hbelow _ (hround.mem_listed hturn))
      rw [stateAt_eq_first hbehind] at hlive
      exact hdead hlive }

/-- A turn that ends early is the last one. -/
theorem of_error {halt : Halt} (hlive : isLive (timersOf first) position = true)
    (hran : runFrom (call position) first = (.error halt, last))
    (hbelow : ∀ other ∈ listed, position < other) :
    Round timersOf call (position :: listed)
      ⟨first, [⟨position, first, .error halt, last⟩], .error halt, last⟩ where
  consecutive := ⟨rfl, rfl⟩
  ordered := List.pairwise_singleton _ _
  ran := List.forall_mem_singleton.mpr ⟨(if_neg (Nat.lt_irrefl position)).symm, hran⟩
  called_iff := fun other ↦ by
    simp only [List.mem_cons, List.not_mem_nil, or_false, exists_eq_left, forall_eq]
    constructor
    · rintro rfl
      refine ⟨.inl rfl, ?_, fun habsurd ↦ absurd habsurd (Nat.lt_irrefl _)⟩
      rwa [stateAt, if_neg (Nat.lt_irrefl _)]
    · rintro ⟨rfl | hother, -, hregular⟩
      · rfl
      · exact nomatch hregular (hbelow other hother)
  endsWith := .single rfl

/-- A turn that ends regularly comes before the turns of the other positions listed. -/
theorem cons (hlive : isLive (timersOf first) position = true)
    (hran : runFrom (call position) first = (.ok (), lap.before))
    (hbelow : ∀ other ∈ listed, position < other) (hround : Round timersOf call listed lap) :
    Round timersOf call (position :: listed)
      ⟨first, ⟨position, first, .ok (), lap.before⟩ :: lap.turns, lap.ended, lap.after⟩ := by
  have hbehind : ∀ turn ∈ lap.turns, position < turn.position := fun turn hturn ↦
    hbelow _ (hround.mem_listed hturn)
  -- The turns that come later are left in the states in which they came without this one.
  have hstate {other : Nat} (hother : position < other) :
      stateAt first (⟨position, first, .ok (), lap.before⟩ :: lap.turns) other =
        stateAt lap.before lap.turns other :=
    if_pos hother
  refine ⟨⟨rfl, hround.consecutive⟩, .cons hbehind hround.ordered, ?_, fun other ↦ ?_,
    .cons rfl hround.endsWith⟩
  · refine List.forall_mem_cons.mpr ⟨⟨(if_neg (Nat.lt_irrefl position)).symm, hran⟩, ?_⟩
    intro turn hturn
    rw [hstate (hbehind turn hturn)]
    exact hround.ran turn hturn
  · simp only [List.mem_cons, exists_eq_or_imp, forall_eq_or_imp]
    rcases Nat.lt_trichotomy other position with hbefore | rfl | hafter
    · constructor
      · rintro (rfl | ⟨turn, hturn, rfl⟩)
        · exact absurd hbefore (Nat.lt_irrefl _)
        · exact absurd (hbehind turn hturn) (Nat.lt_asymm hbefore)
      · rintro ⟨rfl | hother, -⟩
        · exact absurd hbefore (Nat.lt_irrefl _)
        · exact absurd (hbelow other hother) (Nat.lt_asymm hbefore)
    · refine iff_of_true (.inl rfl) ⟨.inl rfl, ?_, fun _ ↦ trivial, fun turn hturn habsurd ↦ ?_⟩
      · rwa [stateAt, if_neg (Nat.lt_irrefl _)]
      · exact absurd habsurd (Nat.lt_asymm (hbehind turn hturn))
    · rw [hstate hafter, or_iff_right (Nat.ne_of_lt hafter), hround.called_iff other,
        or_iff_right (Nat.ne_of_gt hafter)]
      simp only [implies_true, true_and]

end Round

section Rounds

variable {timersOf : State → Array (Timer Task)} {call : Nat → Activity State Unit}

/-- Calls in turn are a round over the positions listed. The induction is on those that remain. -/
theorem ends_fireListed {listed : List Nat} (hordered : listed.Pairwise (· < ·)) (fired : Nat)
    (first : State) :
    Ends (fireListed timersOf call listed fired) first fun outcome last ↦
      ∃ turns ended, Round timersOf call listed ⟨first, turns, ended, last⟩ ∧
        match outcome with
        | .ok total => ended = .ok () ∧ total = fired + turns.length
        | .error halt => ended = .error halt := by
  induction listed generalizing fired first with
  | nil => exact ⟨[], _, .nil timersOf call first, rfl, rfl⟩
  | cons position later ih =>
    obtain ⟨hbelow, hlater⟩ := List.pairwise_cons.mp hordered
    rw [fireListed, ends_bind, ends_get]
    by_cases hlive : isLive (timersOf first) position = true
    · simp only [if_pos hlive]
      rw [ends_bind]
      unfold Ends
      generalize hran : runFrom (call position) first = ended
      obtain ⟨halt | _, middle⟩ := ended
      · exact ⟨_, _, .of_error hlive hran hbelow, rfl⟩
      · obtain ⟨turns, ended, hround, hanswer⟩ := ih hlater (fired + 1) middle
        refine ⟨_, _, .cons hlive hran hbelow hround, ?_⟩
        generalize (runFrom (fireListed timersOf call later (fired + 1)) middle).1 = outcome
          at hanswer ⊢
        cases outcome with
        | ok total =>
          exact ⟨hanswer.1, hanswer.2.trans (Nat.add_right_comm fired 1 turns.length)⟩
        | error halt => exact hanswer
    · simp only [if_neg hlive]
      refine Ends.mono (ih hlater fired first) fun outcome last ↦ ?_
      rintro ⟨turns, ended, hround, hanswer⟩
      exact ⟨turns, ended, .skip hlive hbelow hround, hanswer⟩

/-- Further rounds start from where the earlier ones have led. -/
theorem fireRounds_add (rounds further fired : Nat) :
    fireRounds timersOf call (rounds + further) fired =
      fireRounds timersOf call rounds fired >>= fireRounds timersOf call further := by
  induction rounds generalizing fired with
  | zero => rw [Nat.zero_add, fireRounds, pure_bind]
  | succ rounds ih =>
    rw [Nat.succ_add]
    simp only [fireRounds, bind_assoc, ih]

theorem fireListed_eq_map (listed : List Nat) (fired : Nat) :
    fireListed timersOf call listed fired =
      (fired + ·) <$> fireListed timersOf call listed 0 := by
  induction listed generalizing fired with
  | nil => rfl
  | cons position later ih =>
    simp only [fireListed, map_bind]
    refine bind_congr fun state ↦ ?_
    split
    · rw [map_bind]
      refine bind_congr fun _ ↦ ?_
      rw [ih (fired + 1), ih (0 + 1), ← comp_map]
      simp only [Function.comp_def, Nat.add_assoc, Nat.zero_add]
    · exact ih fired

/-- What has been counted before is added to what the rounds count. -/
theorem fireRounds_eq_map (rounds fired : Nat) :
    fireRounds timersOf call rounds fired = (fired + ·) <$> fire timersOf call rounds := by
  induction rounds generalizing fired with
  | zero => rfl
  | succ rounds ih =>
    simp only [fire, fireRounds, map_bind]
    refine bind_congr fun state ↦ ?_
    rw [fireListed_eq_map _ fired, bind_map_left]
    refine bind_congr fun count ↦ ?_
    rw [ih (fired + count), ih count, ← comp_map]
    simp only [Function.comp_def, Nat.add_assoc]

/-- To fire some rounds and then some more is to fire all of them, and to add what the two have
counted. -/
theorem fire_add (rounds further : Nat) :
    fire timersOf call (rounds + further) = (do
      let fired ← fire timersOf call rounds
      return fired + (← fire timersOf call further)) := by
  rw [fire, fireRounds_add]
  refine bind_congr fun fired ↦ ?_
  rw [fireRounds_eq_map, map_eq_pure_bind]

theorem live_pairwise (timers : Array (Timer Task)) : (live timers).Pairwise (· < ·) :=
  List.pairwise_lt_range.filter _

/-- A single round is over the timers that are live when it begins. -/
theorem ends_fire_one {first : State} {required : Except Halt Nat → State → Prop} :
    Ends (fire timersOf call 1) first required ↔
      Ends (fireListed timersOf call (live (timersOf first)) 0) first required := by
  rw [fire, fireRounds, ends_bind, ends_get]
  exact iff_of_eq (congrArg (Ends · first required) (bind_pure _))

namespace Firing

variable {rounds : Nat} {first middle last : State} {turns : List (Turn State)}
variable {laps : List (Lap State)} {outcome : Except Halt Nat}

/-- No rounds were asked for. -/
theorem nil (timersOf : State → Array (Timer Task)) (call : Nat → Activity State Unit)
    (first : State) : Firing timersOf call 0 first [] (.ok 0) first where
  consecutive := rfl
  round := fun _ hnone ↦ absurd hnone List.not_mem_nil
  endsWith := fun _ hnone ↦ absurd hnone List.not_mem_nil
  length_le := Nat.le_refl 0
  answer := fun _ hanswer ↦ by cases hanswer; exact ⟨rfl, rfl⟩

/-- A round that ends early is the last one. -/
theorem of_error {halt : Halt}
    (hround : Round timersOf call (live (timersOf first)) ⟨first, turns, .error halt, last⟩)
    (rounds : Nat) :
    Firing timersOf call (rounds + 1) first [⟨first, turns, .error halt, last⟩] (.error halt)
      last where
  consecutive := ⟨rfl, rfl⟩
  round := List.forall_mem_singleton.mpr hround
  endsWith := .single rfl
  length_le := Nat.succ_le_succ (Nat.zero_le rounds)
  answer := fun _ habsurd ↦ nomatch habsurd

/-- A round that ends regularly comes before the other rounds. -/
theorem cons
    (hround : Round timersOf call (live (timersOf first)) ⟨first, turns, .ok (), middle⟩)
    (hlater : Firing timersOf call rounds middle laps outcome last) :
    Firing timersOf call (rounds + 1) first (⟨first, turns, .ok (), middle⟩ :: laps)
      (outcome.map (turns.length + ·)) last where
  consecutive := ⟨rfl, hlater.consecutive⟩
  round := List.forall_mem_cons.mpr ⟨hround, hlater.round⟩
  endsWith := by
    have hends : EndsWith Lap.ended (⟨first, turns, .ok (), middle⟩ :: laps) outcome :=
      .cons rfl hlater.endsWith
    cases outcome with
    | ok fired => exact hends
    | error halt => exact hends
  length_le := Nat.succ_le_succ hlater.length_le
  answer := by
    intro total htotal
    cases outcome with
    | ok fired =>
      obtain ⟨hlaps, hfired⟩ := hlater.answer fired rfl
      cases htotal
      refine ⟨congrArg (· + 1) hlaps, ?_⟩
      rw [List.flatMap_cons, List.length_append, hfired]
    | error halt => exact nomatch htotal

end Firing

/-- Firing goes in rounds. The induction is on the rounds that are asked for. -/
theorem ends_fire (rounds : Nat) (first : State) :
    Ends (fire timersOf call rounds) first fun outcome last ↦
      ∃ laps, Firing timersOf call rounds first laps outcome last := by
  induction rounds generalizing first with
  | zero => exact ⟨[], .nil timersOf call first⟩
  | succ rounds ih =>
    have hsucc : fire timersOf call (rounds + 1) = _ := Nat.add_comm 1 rounds ▸ fire_add 1 rounds
    rw [hsucc, ends_bind, ends_fire_one]
    refine Ends.mono (ends_fireListed (live_pairwise _) 0 first) fun outcome middle ↦ ?_
    rintro ⟨turns, ended, hround, hanswer⟩
    cases outcome with
    | error halt =>
      cases hanswer
      exact ⟨_, Firing.of_error hround rounds⟩
    | ok total =>
      obtain ⟨rfl, rfl⟩ := hanswer
      simp only [Nat.zero_add]
      rw [ends_bind]
      refine Ends.mono (ih middle) fun outcome last ↦ ?_
      rintro ⟨laps, hlaps⟩
      have hfiring := Firing.cons hround hlaps
      cases outcome with
      | error halt => exact ⟨_, hfiring⟩
      | ok fired => exact ⟨_, hfiring⟩

/-- Where calls only add timers and cancel them, nothing that was cancelled before has a turn, and
nothing has one after its cancellation. -/
theorem Firing.not_isCancelled {rounds : Nat} {first last : State} {laps : List (Lap State)}
    {outcome : Except Halt Nat} (hfiring : Firing timersOf call rounds first laps outcome last)
    (hgrown : ∀ position state,
      Grown (timersOf state) (timersOf (runFrom (call position) state).2)) :
    (∀ turn ∈ laps.flatMap Lap.turns, ¬ IsCancelled (timersOf first) turn.position) ∧
      (laps.flatMap Lap.turns).Pairwise fun turn later ↦
        ¬ IsCancelled (timersOf turn.after) later.position := by
  have hturns : Consecutive Turn.before Turn.after first (laps.flatMap Lap.turns) last :=
    hfiring.consecutive.flatMap fun lap hlap ↦ (hfiring.round lap hlap).consecutive
  have hran : ∀ turn ∈ laps.flatMap Lap.turns, isLive (timersOf turn.before) turn.position = true ∧
      Grown (timersOf turn.before) (timersOf turn.after) := by
    intro turn hturn
    obtain ⟨lap, hlap, hmem⟩ := List.mem_flatMap.mp hturn
    have hround := hfiring.round lap hlap
    have hcall := hgrown turn.position turn.before
    rw [(hround.ran turn hmem).2] at hcall
    exact ⟨hround.isLive_before hmem, hcall⟩
  obtain ⟨hreached, hpairs⟩ := hturns.grown fun turn hturn ↦ (hran turn hturn).2
  exact ⟨fun turn hturn ↦ (hreached turn hturn).not_isCancelled (hran turn hturn).1,
    hpairs.imp_of_mem fun _ hlater hpair ↦ hpair.not_isCancelled (hran _ hlater).1⟩

end Rounds

end Timer

end TapeRunner
