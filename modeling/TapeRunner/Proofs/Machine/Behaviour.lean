import TapeRunner.Machine.Supply
import TapeRunner.Proofs.Machine.Program

/-!
# What a nested program does

The meaning of a program without a counter and without a bracket table. A `Store` is what a
program acts on: the tape, the head, the pending input and the output. A `Behaviour` relates a
store to the number of characters carried out, to the fault if there is one, and to the store
afterwards. Sequences compose behaviours, and a loop repeats the behaviour of its body while the
cell under the head is not zero. A loop's `[` counts once, when the loop is met, and its `]` once
for every turn.
-/

set_option autoImplicit false
set_option relaxedAutoImplicit false

namespace TapeRunner

/-- What a program acts on. -/
structure Store where
  cells : Array UInt8
  head : Nat
  supply : Supply
  output : Output
deriving DecidableEq

namespace Store

/-- A tape of zeros, the head on its first cell, nothing written. -/
def blank (size : Nat) (supply : Supply) : Store := ⟨Array.replicate size 0, 0, supply, .empty⟩

/-- The cell under the head. -/
def cell (store : Store) : UInt8 := store.cells.getD store.head 0

/-- Replaces the cell under the head. -/
def put (store : Store) (value : UInt8) : Store :=
  { store with cells := store.cells.setIfInBounds store.head value }

/-- What a character outside loops does. A character without a meaning does nothing. -/
def act (store : Store) (character : Char) : Except Fault Store :=
  match character with
  | '>' =>
    if store.head + 1 < store.cells.size then .ok { store with head := store.head + 1 }
    else .error .overflow
  | '<' => if 0 < store.head then .ok { store with head := store.head - 1 } else .error .underflow
  | '+' => .ok (store.put (store.cell + 1))
  | '-' => .ok (store.put (store.cell - 1))
  | '.' => .ok { store with output := ⟨store.output.bytes.push store.cell⟩ }
  | ',' =>
    match store.supply.pending with
    | [] => .error .noInput
    | byte :: later => .ok { store.put byte with supply := ⟨later⟩ }
  | _ => .ok store

/-- The head is on the tape. -/
def Inside (store : Store) : Prop := store.head < store.cells.size

theorem inside_blank {size : Nat} (positive : 0 < size) (supply : Supply) :
    (blank size supply).Inside := by
  simpa [Inside, blank] using positive

/-- No character moves the head off the tape. -/
theorem Inside.act {store next : Store} (hinside : store.Inside) {character : Char}
    (hact : store.act character = .ok next) : next.Inside := by
  have hput (value : UInt8) : (store.put value).Inside := by
    simpa [Inside, put] using hinside
  unfold Store.act at hact
  split at hact
  · split at hact
    · next hroom =>
      obtain rfl := Except.ok.inj hact
      exact hroom
    · exact absurd hact (by simp)
  · split at hact
    · obtain rfl := Except.ok.inj hact
      exact Nat.lt_of_le_of_lt (Nat.sub_le _ _) hinside
    · exact absurd hact (by simp)
  · obtain rfl := Except.ok.inj hact
    exact hput _
  · obtain rfl := Except.ok.inj hact
    exact hput _
  · obtain rfl := Except.ok.inj hact
    exact hinside
  · split at hact
    · exact absurd hact (by simp)
    · next byte later hpending =>
      obtain rfl := Except.ok.inj hact
      exact hput byte
  · obtain rfl := Except.ok.inj hact
    exact hinside

end Store

/-! ### Behaviours -/

/-- What can come of a store: after so many characters, with a fault or without one, another
store. -/
abbrev Behaviour := Store → Nat → Option Fault → Store → Prop

namespace Behaviour

/-- Nothing is carried out. -/
def idle : Behaviour := fun store count fault? last ↦ count = 0 ∧ fault? = none ∧ last = store

/-- One character is carried out, and nothing changes. -/
def pass : Behaviour := fun store count fault? last ↦ count = 1 ∧ fault? = none ∧ last = store

/-- One character acts. A fault is met before it has counted. -/
def act (character : Char) : Behaviour := fun store count fault? last ↦
  match store.act character with
  | .ok next => count = 1 ∧ fault? = none ∧ last = next
  | .error fault => count = 0 ∧ fault? = some fault ∧ last = store

/-- The first behaviour, and then the second one unless the first came to a fault. -/
def andThen (first second : Behaviour) : Behaviour := fun store count fault? last ↦
  (∃ fault, fault? = some fault ∧ first store count (some fault) last) ∨
    ∃ before after next, count = before + after ∧ first store before none next ∧
      second next after fault? last

/-- A behaviour again and again, while the cell under the head is not zero. -/
inductive Repeated (body : Behaviour) : Behaviour
  | leave {store : Store} (hzero : store.cell = 0) : Repeated body store 0 none store
  | fault {store last : Store} {count : Nat} {fault : Fault} (hcell : store.cell ≠ 0)
      (hbody : body store count (some fault) last) : Repeated body store count (some fault) last
  | turn {store next last : Store} {count further : Nat} {fault? : Option Fault}
      (hcell : store.cell ≠ 0) (hbody : body store count none next)
      (hrest : Repeated body next further fault? last) :
      Repeated body store (count + further) fault? last

end Behaviour

/-- What a program does. -/
def Program.behaviour : Program → Behaviour
  | done => .idle
  | symbol character _ rest => (Behaviour.act character).andThen rest.behaviour
  | loop body rest =>
    .andThen .pass ((Behaviour.Repeated (body.behaviour.andThen .pass)).andThen rest.behaviour)

end TapeRunner
