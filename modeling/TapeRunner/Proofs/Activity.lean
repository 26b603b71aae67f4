import TapeRunner.Timer

/-!
# How activities end

`Activity.Ends` says of a run of an activity from a state how it ends and in which state, and it is
opened activity by activity: the first part of a sequence ends so that the rest, from there, ends as
required (`ends_bind`). `Activity.Yields` says so of the regular ends, with the early ones that are
allowed for said apart, and `Activity.Keeps` is an invariant in this sense. What is kept by the
parts is kept by a sequence, by a list of activities and by the rounds of timers (`Keeps.bind`,
`Keeps.forM`, `Keeps.fireRounds`).
-/

set_option autoImplicit false
set_option relaxedAutoImplicit false

namespace TapeRunner

namespace Activity

variable {State Result Next : Type}

/-- From a state, an activity ends as required. -/
def Ends (activity : Activity State Result) (state : State)
    (required : Except Halt Result → State → Prop) : Prop :=
  required (runFrom activity state).1 (runFrom activity state).2

section Ends

variable {activity : Activity State Result} {state : State}
variable {required weaker : Except Halt Result → State → Prop}

theorem Ends.mono (hends : Ends activity state required)
    (hweaker : ∀ outcome last, required outcome last → weaker outcome last) :
    Ends activity state weaker :=
  hweaker _ _ hends

/-- What is required of an end holds of the end that is reached. -/
theorem Ends.of_runFrom (hends : Ends activity state required) {outcome : Except Halt Result}
    {last : State} (hrun : runFrom activity state = (outcome, last)) : required outcome last := by
  unfold Ends at hends
  rwa [hrun] at hends

theorem ends_congr (hsame : ∀ outcome last, required outcome last ↔ weaker outcome last) :
    Ends activity state required ↔ Ends activity state weaker :=
  hsame _ _

@[simp] theorem ends_pure (result : Result) :
    Ends (pure result) state required ↔ required (.ok result) state := Iff.rfl

@[simp] theorem ends_fail (error : Error) :
    Ends (fail error : Activity State Result) state required ↔
      required (.error (.raised error)) state := Iff.rfl

@[simp] theorem ends_get {required : Except Halt State → State → Prop} :
    Ends get state required ↔ required (.ok state) state := Iff.rfl

@[simp] theorem ends_modify {required : Except Halt Unit → State → Prop}
    (change : State → State) :
    Ends (modify change) state required ↔ required (.ok ()) (change state) := Iff.rfl

@[simp] theorem ends_set {required : Except Halt Unit → State → Prop} (next : State) :
    Ends (set next) state required ↔ required (.ok ()) next := Iff.rfl

/-- The rest of a sequence starts where its first part ends; if that ends early, so does all. -/
theorem ends_bind {required : Except Halt Next → State → Prop} (first : Activity State Result)
    (next : Result → Activity State Next) :
    Ends (first >>= next) state required ↔ Ends first state fun outcome middle ↦
      match outcome with
      | .ok result => Ends (next result) middle required
      | .error halt => required (.error halt) middle := by
  unfold Ends
  rw [runFrom_bind]
  rcases runFrom first state with ⟨halt | result, middle⟩ <;> exact Iff.rfl

/-- An attempt ends as the activity does, with a fault for an answer. -/
theorem ends_attempt {required : Except Halt (Except Fault Result) → State → Prop} :
    Ends (attempt activity) state required ↔ Ends activity state fun outcome last ↦
      match outcome with
      | .ok result => required (.ok (.ok result)) last
      | .error (.raised (.fault fault)) => required (.ok (.error fault)) last
      | .error halt => required (.error halt) last := by
  unfold Ends
  rw [runFrom_attempt]
  rcases runFrom activity state with ⟨halt | result, last⟩
  · rcases halt with error | _
    · cases error <;> exact Iff.rfl
    · exact Iff.rfl
  · exact Iff.rfl

/-- Turns every error into an answer; only giving up stays an end. -/
def caught (activity : Activity State Result) : Activity State (Except Error Result) :=
  tryCatch (do return .ok (← activity)) fun
    | .raised error => return .error error
    | .unfinished => throw .unfinished

/-- What is caught ends as the activity does, with an error for an answer. -/
theorem ends_caught {required : Except Halt (Except Error Result) → State → Prop} :
    Ends (caught activity) state required ↔ Ends activity state fun outcome last ↦
      match outcome with
      | .ok result => required (.ok (.ok result)) last
      | .error (.raised error) => required (.ok (.error error)) last
      | .error .unfinished => required (.error .unfinished) last := by
  unfold Ends caught
  rw [runFrom_tryCatch, runFrom_bind]
  rcases runFrom activity state with ⟨halt | result, last⟩
  · rcases halt with error | _ <;> exact Iff.rfl
  · exact Iff.rfl

end Ends

/-! ### Regular ends -/

/-- From a state, an activity ends regularly as required, or early in a way that is allowed for. -/
def Yields (halted : Halt → State → Prop) (activity : Activity State Result) (state : State)
    (required : Result → State → Prop) : Prop :=
  Ends activity state fun outcome last ↦
    match outcome with
    | .ok result => required result last
    | .error halt => halted halt last

/-- From the invariant, an activity ends in the invariant or in an early way that is allowed for. -/
def Keeps (inv : State → Prop) (halted : Halt → State → Prop) (activity : Activity State Result) :
    Prop :=
  ∀ state, inv state → Yields halted activity state fun _ ↦ inv

/-- A fault is an early end in the invariant; other early ends are those allowed for. -/
def orFault (inv : State → Prop) (halted : Halt → State → Prop) : Halt → State → Prop
  | .raised (.fault _), last => inv last
  | halt, last => halted halt last

/-- In whatever way the activity ends, it ends in the invariant. -/
abbrev Preserves (inv : State → Prop) (activity : Activity State Result) : Prop :=
  Keeps inv (fun _ ↦ inv) activity

/-- To end as required is to end regularly as required and early as required. -/
theorem ends_iff_yields {activity : Activity State Result} {state : State}
    {required : Except Halt Result → State → Prop} :
    Ends activity state required ↔
      Yields (fun halt ↦ required (.error halt)) activity state
        fun result ↦ required (.ok result) := by
  unfold Yields
  apply ends_congr
  intro outcome last
  rcases outcome with halt | result <;> exact Iff.rfl

section Yields

variable {halted : Halt → State → Prop} {state : State} {inv : State → Prop}

theorem Yields.mono {activity : Activity State Result} {required weaker : Result → State → Prop}
    (hyields : Yields halted activity state required)
    (hweaker : ∀ result last, required result last → weaker result last) :
    Yields halted activity state weaker := by
  refine Ends.mono hyields ?_
  intro outcome last hrequired
  rcases outcome with halt | result
  · exact hrequired
  · exact hweaker result last hrequired

theorem Yields.bind {first : Activity State Result} {next : Result → Activity State Next}
    {middle : Result → State → Prop} {required : Next → State → Prop}
    (hfirst : Yields halted first state middle)
    (hnext : ∀ result after, middle result after → Yields halted (next result) after required) :
    Yields halted (first >>= next) state required := by
  refine (ends_bind first next).mpr (Ends.mono hfirst fun outcome after hmiddle ↦ ?_)
  rcases outcome with halt | result
  · exact hmiddle
  · exact hnext result after hmiddle

/-- What is allowed for can be more. -/
theorem Yields.allow {activity : Activity State Result} {required : Result → State → Prop}
    {allowed : Halt → State → Prop} (hyields : Yields halted activity state required)
    (hallowed : ∀ halt last, halted halt last → allowed halt last) :
    Yields allowed activity state required := by
  refine Ends.mono hyields ?_
  intro outcome last hrequired
  rcases outcome with halt | result
  · exact hallowed halt last hrequired
  · exact hrequired

/-- Whoever attempts an activity goes on after its faults. -/
theorem Yields.attempt {activity : Activity State Result}
    (hyields : Yields (orFault inv halted) activity state fun _ ↦ inv) :
    Yields halted (attempt activity) state fun _ ↦ inv := by
  refine ends_attempt.mpr (Ends.mono hyields fun outcome last hrequired ↦ ?_)
  rcases outcome with halt | result
  · rcases halt with error | _
    · cases error <;> exact hrequired
    · exact hrequired
  · exact hrequired

/-- Whoever attempts what does not fault has its result. -/
theorem Yields.attempt_ok {activity : Activity State Result} {required : Result → State → Prop}
    (hyields : Yields halted activity state required)
    (hfault : ∀ fault last, ¬ halted (.raised (.fault fault)) last) :
    Yields halted (Activity.attempt activity) state fun outcome last ↦
      ∃ result, outcome = .ok result ∧ required result last := by
  refine ends_attempt.mpr (Ends.mono hyields fun outcome last hrequired ↦ ?_)
  rcases outcome with halt | result
  · rcases halt with error | _
    · cases error with
      | fault fault => exact absurd hrequired (hfault fault last)
      | _ => exact hrequired
    · exact hrequired
  · exact ⟨result, rfl, hrequired⟩

theorem Keeps.pure (result : Result) :
    Keeps inv halted (Pure.pure result : Activity State Result) :=
  fun _ hinv ↦ hinv

theorem Keeps.bind {first : Activity State Result} {next : Result → Activity State Next}
    (hfirst : Keeps inv halted first) (hnext : ∀ result, Keeps inv halted (next result)) :
    Keeps inv halted (first >>= next) :=
  fun state hinv ↦ (hfirst state hinv).bind fun result after hafter ↦ hnext result after hafter

/-- What only reads the state leaves the choice of the rest to the state. -/
theorem Keeps.get_bind {next : State → Activity State Next}
    (hnext : ∀ state, inv state → Yields halted (next state) state fun _ ↦ inv) :
    Keeps inv halted (get >>= next) := by
  intro state hinv
  rw [Yields, ends_bind, ends_get]
  exact hnext state hinv

theorem Keeps.modify {change : State → State} (hchange : ∀ state, inv state → inv (change state)) :
    Keeps inv halted (modify change : Activity State Unit) :=
  fun state hinv ↦ hchange state hinv

theorem Keeps.forM {Item : Type} {activity : Item → Activity State Unit} (items : List Item)
    (hkeeps : ∀ item ∈ items, Keeps inv halted (activity item)) :
    Keeps inv halted (items.forM activity) := by
  induction items with
  | nil => exact Keeps.pure ()
  | cons item later ih =>
    exact Keeps.bind (hkeeps item List.mem_cons_self)
      fun _ ↦ ih fun other hother ↦ hkeeps other (List.mem_cons_of_mem _ hother)

end Yields

theorem Preserves.fail {inv : State → Prop} (error : Error) :
    Preserves inv (fail error : Activity State Result) :=
  fun _ hinv ↦ hinv

/-- An activity has ended as required, or early in a way that is allowed for. -/
theorem Yields.ended {halted : Halt → State → Prop} {activity : Activity State Result}
    {state : State} {required : Result → State → Prop}
    (hyields : Yields halted activity state required) :
    let ended := runFrom activity state
    (∃ result, ended.1 = .ok result ∧ required result ended.2) ∨
      ∃ halt, ended.1 = .error halt ∧ halted halt ended.2 := by
  intro ended
  change match ended.1 with
    | .ok result => required result ended.2
    | .error halt => halted halt ended.2 at hyields
  rcases ended with ⟨halt | result, last⟩
  · exact .inr ⟨halt, rfl, hyields⟩
  · exact .inl ⟨result, rfl, hyields⟩

/-- Where a regular end is as required, the activity has led there. -/
theorem Yields.reached {halted : Halt → State → Prop} {activity : Activity State Result}
    {state : State} {required : Result → State → Prop}
    (hyields : Yields halted activity state required) :
    Yields halted activity state fun result last ↦
      runFrom activity state = (.ok result, last) ∧ required result last := by
  unfold Yields Ends at hyields ⊢
  generalize runFrom activity state = ended at hyields ⊢
  obtain ⟨halt | result, last⟩ := ended
  · exact hyields
  · exact ⟨rfl, hyields⟩

/-- What holds in whatever way the activity ends holds in its last state. -/
theorem Yields.last {inv : State → Prop} {activity : Activity State Result} {state : State}
    (hyields : Yields (fun _ ↦ inv) activity state fun _ ↦ inv) :
    inv (runFrom activity state).2 := by
  rcases hyields.ended with ⟨_, _, hlast⟩ | ⟨_, _, hlast⟩ <;> exact hlast

/-- What holds in whatever way the activity ends holds at a regular end besides. -/
theorem Yields.and_last {halted : Halt → State → Prop} {activity : Activity State Result}
    {state : State} {required : Result → State → Prop} {lasting : State → Prop}
    (hyields : Yields halted activity state required)
    (hlasting : Yields (fun _ ↦ lasting) activity state fun _ ↦ lasting) :
    Yields halted activity state fun result last ↦ required result last ∧ lasting last := by
  have hlast := hlasting.last
  unfold Yields Ends at hyields ⊢
  generalize runFrom activity state = ended at hyields hlast ⊢
  obtain ⟨halt | result, last⟩ := ended
  · exact hyields
  · exact ⟨hyields, hlast⟩

/-- Some way an activity always ends. -/
theorem yields_true (activity : Activity State Result) (state : State) :
    Yields (fun _ _ ↦ True) activity state fun _ _ ↦ True := by
  unfold Yields Ends
  generalize runFrom activity state = ended
  obtain ⟨halt | result, last⟩ := ended <;> trivial

/-- What is preserved by itself is preserved together. -/
theorem Preserves.and {inv other : State → Prop} {activity : Activity State Result}
    (hinv : Preserves inv activity) (hother : Preserves other activity) :
    Preserves (fun state ↦ inv state ∧ other state) activity := by
  rintro state ⟨hstate, hsame⟩
  have hfirst := hinv state hstate
  have hsecond := hother state hsame
  unfold Yields Ends at hfirst hsecond ⊢
  generalize runFrom activity state = ended at hfirst hsecond ⊢
  obtain ⟨halt | result, last⟩ := ended <;> exact ⟨hfirst, hsecond⟩

/-- What is survived is preserved as well. -/
theorem Preserves.survives {inv : State → Prop} {activity : Activity State Unit}
    (hpreserves : Preserves inv activity) : Preserves inv (survives activity) := by
  intro state hinv
  have hlast := (hpreserves state hinv).last
  unfold Yields Ends
  rw [Activity.survives, runFrom_tryCatch, runFrom_bind]
  generalize runFrom activity state = ended at hlast ⊢
  obtain ⟨halt | result, last⟩ := ended
  · rcases halt with error | _ <;> exact hlast
  · exact hlast

/-- What holds in whatever way an activity ends holds after an attempt at it. -/
theorem Yields.attempted {inv : State → Prop} {activity : Activity State Result} {state : State}
    (hyields : Yields (fun _ ↦ inv) activity state fun _ ↦ inv) :
    Yields (fun _ ↦ inv) (Activity.attempt activity) state fun _ ↦ inv := by
  refine Yields.attempt (Yields.allow hyields ?_)
  intro halt _ hlast
  unfold orFault
  split <;> exact hlast

/-- What is attempted is preserved as well. -/
theorem Preserves.attempt {inv : State → Prop} {activity : Activity State Result}
    (hpreserves : Preserves inv activity) : Preserves inv (attempt activity) :=
  fun state hinv ↦ (hpreserves state hinv).attempted

/-- What is caught is preserved as well. -/
theorem Preserves.caught {inv : State → Prop} {activity : Activity State Result}
    (hpreserves : Preserves inv activity) : Preserves inv (caught activity) := by
  intro state hinv
  refine ends_caught.mpr (Ends.mono (hpreserves state hinv) ?_)
  intro outcome last hlast
  rcases outcome with halt | result
  · rcases halt with error | _ <;> exact hlast
  · exact hlast

/-! ### Ends that are answers -/

/-- How an attempt at an activity ends. -/
def attemptEnd : Except Halt Result → Except Halt (Except Fault Result)
  | .ok result => .ok (.ok result)
  | .error (.raised (.fault fault)) => .ok (.error fault)
  | .error halt => .error halt

/-- How an activity ends whose errors are caught. -/
def caughtEnd : Except Halt Result → Except Halt (Except Error Result)
  | .ok result => .ok (.ok result)
  | .error (.raised error) => .ok (.error error)
  | .error .unfinished => .error .unfinished

/-- How it ends to ask whether an activity survives. -/
def survivesEnd : Except Halt Unit → Except Halt Bool
  | .ok _ => .ok true
  | .error (.raised _) => .ok false
  | .error .unfinished => .error .unfinished

/-- An attempt is over where the activity is. -/
theorem runFrom_attempt_eq (activity : Activity State Result) (state : State) :
    runFrom (attempt activity) state =
      (attemptEnd (runFrom activity state).1, (runFrom activity state).2) := by
  rw [runFrom_attempt]
  rcases runFrom activity state with ⟨halt | result, last⟩
  · rcases halt with error | _
    · cases error <;> rfl
    · rfl
  · rfl

/-- So is an activity whose errors are caught. -/
theorem runFrom_caught_eq (activity : Activity State Result) (state : State) :
    runFrom (caught activity) state =
      (caughtEnd (runFrom activity state).1, (runFrom activity state).2) := by
  rw [caught, runFrom_tryCatch, runFrom_bind]
  rcases runFrom activity state with ⟨halt | result, last⟩
  · cases halt <;> rfl
  · rfl

/-- So is one of which it is asked whether it survives. -/
theorem runFrom_survives_eq (activity : Activity State Unit) (state : State) :
    runFrom (survives activity) state =
      (survivesEnd (runFrom activity state).1, (runFrom activity state).2) := by
  rw [survives, runFrom_tryCatch, runFrom_bind]
  rcases runFrom activity state with ⟨halt | result, last⟩
  · cases halt <;> rfl
  · rfl

/-! ### Rounds of timers -/

section Timers

variable {inv : State → Prop} {halted : Halt → State → Prop} {Task : Type}
variable {timersOf : State → Array (Timer Task)} {call : Nat → Activity State Unit}

theorem Keeps.fireListed (hcall : ∀ index state, inv state →
      Timer.isLive (timersOf state) index = true → Yields halted (call index) state fun _ ↦ inv)
    (listed : List Nat) (fired : Nat) :
    Keeps inv halted (Timer.fireListed timersOf call listed fired) := by
  induction listed generalizing fired with
  | nil => exact Keeps.pure fired
  | cons index later ih =>
    apply Keeps.get_bind
    intro state hinv
    split
    · next hlive => exact (hcall index state hinv hlive).bind fun _ ↦ ih (fired + 1)
    · exact ih fired state hinv

/-- What a single call of a live timer keeps is kept by every number of rounds. -/
theorem Keeps.fireRounds (hcall : ∀ index state, inv state →
      Timer.isLive (timersOf state) index = true → Yields halted (call index) state fun _ ↦ inv)
    (rounds fired : Nat) : Keeps inv halted (Timer.fireRounds timersOf call rounds fired) := by
  induction rounds generalizing fired with
  | zero => exact Keeps.pure fired
  | succ rounds ih =>
    apply Keeps.get_bind
    intro state hinv
    exact (Keeps.fireListed hcall _ fired).bind (fun fired ↦ ih fired) state hinv

end Timers

end Activity

end TapeRunner
