import Mathlib.Data.List.Infix
import TapeRunner.Bus

/-!
# Which subscription an unsubscription ends

A bus tells subscriptions apart by their type and handler only. An unsubscription therefore ends the
oldest subscription standing that looks like the one it was asked for (`Bus.subscriptions_after`),
and if its own has been ended before, it ends another one. `Bus.Roll` keeps account by numbers: with
`Bus.Roll.own` a subscription is ended by its own unsubscription and by nothing else.

The two accounts agree about an unsubscription just if it is in turn (`Bus.Roll.InTurn`): whenever a
subscription stands that looks the same, the one asked for stands too, and no other handler stands
between the two. So the bus goes by the numbers for as long as every unsubscription is in turn, and
no longer, and it does so throughout if no handler is subscribed to a type twice
(`Bus.subscribers_kept_iff_in_turn`).
-/

set_option autoImplicit false
set_option relaxedAutoImplicit false

namespace TapeRunner.Bus

/-- What can be asked about subscriptions. They are numbered in the order in which they are made. -/
inductive Request (Handler : Type)
  | subscribe (subscription : Subscription Handler)
  | unsubscribe (number : Nat)
deriving DecidableEq

/-- A bus, and the subscriptions ever made on it. -/
structure Desk (Handler : Type) where
  bus : Bus Handler
  made : List (Subscription Handler)

/-- The subscriptions ever made, and those of them that stand, with their numbers. -/
structure Roll (Handler : Type) where
  made : List (Subscription Handler)
  standing : List (Nat × Subscription Handler)

variable {Handler : Type} {number : Nat}

/-! ### Account by numbers -/

namespace Roll

/-- Meets a request by numbers; `ends` picks the number that an unsubscription ends. -/
def serve (ends : Roll Handler → Nat → Nat) (roll : Roll Handler) :
    Request Handler → Roll Handler
  | .subscribe subscription =>
    if subscription.eventType = "" then roll
    else ⟨roll.made ++ [subscription], roll.standing ++ [(roll.made.length, subscription)]⟩
  | .unsubscribe number =>
    { roll with standing := roll.standing.filter fun entry ↦ entry.1 ≠ ends roll number }

/-- What requests come to on a new roll. -/
def after (ends : Roll Handler → Nat → Nat) (requests : List (Request Handler)) : Roll Handler :=
  requests.foldl (serve ends) ⟨[], []⟩

/-- Every unsubscription ends the subscription that it was asked for. -/
def own (_ : Roll Handler) (number : Nat) : Nat := number

/-- An unsubscription ends the oldest subscription standing that looks like the one asked for. -/
def oldest [DecidableEq Handler] (roll : Roll Handler) (number : Nat) : Nat :=
  match roll.standing.find? fun entry ↦ roll.made[number]? = some entry.2 with
  | some entry => entry.1
  | none => number

/-- The numbers and handlers of the subscriptions to a type that stand. -/
def entriesFor (roll : Roll Handler) (eventType : String) : List (Nat × Handler) :=
  (roll.standing.filter fun entry ↦ entry.2.eventType = eventType).map
    fun entry ↦ (entry.1, entry.2.handler)

/-- The handlers of the subscriptions to a type that stand, in the order in which they were made. -/
def subscribersFor (roll : Roll Handler) (eventType : String) : List Handler :=
  (roll.entriesFor eventType).map Prod.snd

/-- An unsubscription is in turn if, whenever a subscription stands that looks like the one asked
for, the one asked for stands too, and all that stand to its type between the two look like it. -/
def InTurn (roll : Roll Handler) (number : Nat) : Prop :=
  ∀ subscription, roll.made[number]? = some subscription →
    ∀ alike, (alike, subscription) ∈ roll.standing →
      (number, subscription) ∈ roll.standing ∧
        ∀ place other, (place, other) ∈ roll.standing → alike ≤ place → place ≤ number →
          other.eventType = subscription.eventType → other = subscription

/-- What stands was made under its number, and numbers go up. -/
structure Kept (roll : Roll Handler) : Prop where
  made_eq : ∀ entry ∈ roll.standing, roll.made[entry.1]? = some entry.2
  sorted : roll.standing.Pairwise fun entry later ↦ entry.1 < later.1

variable {roll : Roll Handler} {ends : Roll Handler → Nat → Nat} {eventType : String}

theorem after_concat (requests : List (Request Handler)) (request : Request Handler) :
    after ends (requests ++ [request]) = (after ends requests).serve ends request :=
  List.foldl_concat _ _ _ _

theorem made_prefix_serve (request : Request Handler) :
    roll.made <+: (roll.serve ends request).made := by
  cases request with
  | subscribe subscription =>
    rw [serve]
    split
    · exact List.prefix_rfl
    · exact List.prefix_append _ _
  | unsubscribe number => exact List.prefix_rfl

/-- Later requests make no other subscriptions of those made before. -/
theorem made_prefix_after {served requests : List (Request Handler)}
    (hserved : served <+: requests) :
    (after ends served).made <+: (after ends requests).made := by
  obtain ⟨later, rfl⟩ := hserved
  induction later using List.reverseRecOn with
  | nil => rw [List.append_nil]
  | append_singleton later request ih =>
    rw [← List.append_assoc, after_concat]
    exact ih.trans (made_prefix_serve request)

theorem Kept.serve (hkept : roll.Kept) (request : Request Handler) :
    (roll.serve ends request).Kept := by
  cases request with
  | subscribe subscription =>
    rw [Roll.serve]
    split
    · exact hkept
    · have hbefore (entry : Nat × Subscription Handler) (hentry : entry ∈ roll.standing) :
          entry.1 < roll.made.length :=
        (List.getElem?_eq_some_iff.mp (hkept.made_eq entry hentry)).1
      refine ⟨fun entry hentry ↦ ?_, List.pairwise_append.mpr
        ⟨hkept.sorted, List.pairwise_singleton _ _, fun entry hold later hnew ↦ ?_⟩⟩
      · rcases List.mem_append.mp hentry with hold | hnew
        · rw [List.getElem?_append_left (hbefore entry hold), hkept.made_eq entry hold]
        · obtain rfl := List.mem_singleton.mp hnew
          exact List.getElem?_concat_length
      · obtain rfl := List.mem_singleton.mp hnew
        exact hbefore entry hold
  | unsubscribe number =>
    exact ⟨fun entry hentry ↦ hkept.made_eq entry (List.mem_filter.mp hentry).1,
      hkept.sorted.filter _⟩

theorem kept_after (ends : Roll Handler → Nat → Nat) (requests : List (Request Handler)) :
    (after ends requests).Kept := by
  induction requests using List.reverseRecOn with
  | nil => exact ⟨nofun, .nil⟩
  | append_singleton requests request ih =>
    rw [after_concat]
    exact ih.serve request

/-- A number that does not stand is not missed. -/
theorem Kept.filter_eq_self (hkept : roll.Kept)
    (habsent : ∀ subscription, roll.made[number]? = some subscription →
      (number, subscription) ∉ roll.standing) :
    roll.standing.filter (·.1 ≠ number) = roll.standing := by
  refine List.filter_eq_self.mpr fun entry hentry ↦ ?_
  simp only [ne_eq, decide_eq_true_eq]
  rintro rfl
  exact habsent entry.2 (hkept.made_eq entry hentry) hentry

theorem mem_entriesFor_iff {handler : Handler} :
    (number, handler) ∈ roll.entriesFor eventType ↔
      (number, ⟨eventType, handler⟩) ∈ roll.standing := by
  simp only [entriesFor, List.mem_map, List.mem_filter, decide_eq_true_eq, Prod.mk.injEq]
  constructor
  · rintro ⟨⟨_, subscription⟩, ⟨hmem, rfl⟩, rfl, rfl⟩
    exact hmem
  · intro hmem
    exact ⟨_, ⟨hmem, rfl⟩, rfl, rfl⟩

theorem Kept.sorted_entriesFor (hkept : roll.Kept) (eventType : String) :
    (roll.entriesFor eventType).Pairwise fun entry later ↦ entry.1 < later.1 :=
  List.pairwise_map.mpr (hkept.sorted.filter _)

theorem entriesFor_unsubscribe (eventType : String) :
    (roll.serve own (.unsubscribe number)).entriesFor eventType =
      (roll.entriesFor eventType).filter (·.1 ≠ number) := by
  rw [entriesFor, entriesFor, serve, List.filter_map, List.filter_filter, List.filter_filter]
  simp only [own, Function.comp_def, Bool.and_comm]
  rfl

/-- Where no subscription has been made twice, every unsubscription is in turn. -/
theorem Kept.inTurn (hkept : roll.Kept) (hnodup : roll.made.Nodup) (number : Nat) :
    roll.InTurn number := by
  intro subscription hmade alike halike
  have hplace {place : Nat} (hstands : (place, subscription) ∈ roll.standing) : place = number :=
    (List.getElem?_inj (List.getElem?_eq_some_iff.mp (hkept.made_eq _ hstands)).1 hnodup).mp
      ((hkept.made_eq _ hstands).trans hmade.symm)
  obtain rfl := hplace halike
  refine ⟨halike, fun place other hother hle hlast _ ↦ ?_⟩
  obtain rfl := Nat.le_antisymm hle hlast
  exact Option.some.inj ((hkept.made_eq _ hother).symm.trans hmade)

end Roll

/-! ### The first of equal items -/

section Entries

variable {Item : Type} {entries : List (Nat × Item)} {item : Item}
variable (hsorted : entries.Pairwise fun entry later ↦ entry.1 < later.1)

/-- Behind an entry there is none of its number. -/
theorem filter_ne_eq_self (hbehind : ∀ entry ∈ entries, number < entry.1) :
    entries.filter (·.1 ≠ number) = entries :=
  List.filter_eq_self.mpr fun entry hentry ↦ by simpa using (hbehind entry hentry).ne'

include hsorted

/-- The first of equal items is erased by its number. -/
theorem erase_map_of_find? [DecidableEq Item] :
    (entries.map Prod.snd).erase item = match entries.find? (fun entry ↦ item = entry.2) with
      | some found => (entries.filter (·.1 ≠ found.1)).map Prod.snd
      | none => entries.map Prod.snd := by
  induction entries with
  | nil => rfl
  | cons entry later ih =>
    obtain ⟨hlater, hrest⟩ := List.pairwise_cons.mp hsorted
    by_cases hsame : entry.2 = item
    · rw [List.map_cons, hsame, List.erase_cons_head,
        List.find?_cons_of_pos (by simpa using hsame.symm)]
      simp only [List.filter_cons, ne_eq, not_true_eq_false, decide_false, Bool.false_eq_true,
        if_false]
      exact congrArg (List.map Prod.snd) (filter_ne_eq_self hlater).symm
    · rw [List.map_cons, List.erase_cons_tail (by simpa using hsame), ih hrest,
        List.find?_cons_of_neg (by simpa using Ne.symm hsame)]
      split
      · next found hfind =>
        have hbehind := (hlater found (List.mem_of_find?_eq_some hfind)).ne
        simp [hbehind]
      · rfl

variable (hitem : ∀ other, (number, other) ∈ entries → other = item)
include hitem

/-- An item comes before what is left without the entry of a number just if that entry is there and
what comes before it are such items. -/
theorem map_eq_cons_filter_iff :
    entries.map Prod.snd = item :: (entries.filter (·.1 ≠ number)).map Prod.snd ↔
      (number, item) ∈ entries ∧
        ∀ place other, (place, other) ∈ entries → place ≤ number → other = item := by
  induction entries with
  | nil => simp
  | cons entry later ih =>
    obtain ⟨start, first⟩ := entry
    obtain ⟨hlater, hrest⟩ := List.pairwise_cons.mp hsorted
    have hlast := ih hrest fun other hother ↦ hitem other (List.mem_cons_of_mem _ hother)
    by_cases hnumber : start = number
    · subst hnumber
      obtain rfl := hitem first List.mem_cons_self
      rw [List.filter_cons_of_neg (by simp), filter_ne_eq_self hlater]
      refine ⟨fun _ ↦ ⟨List.mem_cons_self, fun place other hother hle ↦ ?_⟩, fun _ ↦ rfl⟩
      rcases List.mem_cons.mp hother with hfirst | hbehind
      · exact (Prod.mk.inj hfirst).2
      · exact absurd (hlater _ hbehind) (Nat.not_lt.mpr hle)
    · rw [List.filter_cons_of_pos (by simpa using hnumber), List.map_cons, List.map_cons,
        List.cons.injEq]
      constructor
      · rintro ⟨rfl, hbehind⟩
        obtain ⟨hmem, hbefore⟩ := hlast.mp hbehind
        refine ⟨List.mem_cons_of_mem _ hmem, fun place other hother hle ↦ ?_⟩
        rcases List.mem_cons.mp hother with hfirst | hbehind
        · exact (Prod.mk.inj hfirst).2
        · exact hbefore place other hbehind hle
      · rintro ⟨hmem, hbefore⟩
        have hbehind : (number, item) ∈ later :=
          (List.mem_cons.mp hmem).resolve_left fun hfirst ↦ hnumber (Prod.mk.inj hfirst).1.symm
        obtain rfl := hbefore start first List.mem_cons_self (hlater _ hbehind).le
        exact ⟨rfl, hlast.mpr ⟨hbehind, fun place other hother ↦
          hbefore place other (List.mem_cons_of_mem _ hother)⟩⟩

/-- To erase the first of equal items is to drop the entry of a number just if, whenever there is
such an item, that entry is there and what comes in between are such items. -/
theorem erase_map_eq_filter_iff [DecidableEq Item] :
    (entries.map Prod.snd).erase item = (entries.filter (·.1 ≠ number)).map Prod.snd ↔
      ∀ alike, (alike, item) ∈ entries → (number, item) ∈ entries ∧
        ∀ place other, (place, other) ∈ entries → alike ≤ place → place ≤ number →
          other = item := by
  induction entries with
  | nil => simp
  | cons entry later ih =>
    obtain ⟨start, first⟩ := entry
    obtain ⟨hlater, hrest⟩ := List.pairwise_cons.mp hsorted
    have hitems : ∀ other, (number, other) ∈ later → other = item :=
      fun other hother ↦ hitem other (List.mem_cons_of_mem _ hother)
    have hbehind (hmem : (number, item) ∈ (start, first) :: later) (hnumber : start ≠ number) :
        (number, item) ∈ later :=
      (List.mem_cons.mp hmem).resolve_left fun hfirst ↦ hnumber (Prod.mk.inj hfirst).1.symm
    by_cases hsame : first = item
    · subst hsame
      rw [List.map_cons, List.erase_cons_head]
      by_cases hnumber : start = number
      · subst hnumber
        rw [List.filter_cons_of_neg (by simp), filter_ne_eq_self hlater]
        refine ⟨fun _ alike _ ↦ ⟨List.mem_cons_self, fun place other hother _ hle ↦ ?_⟩,
          fun _ ↦ rfl⟩
        rcases List.mem_cons.mp hother with hfirst | hlast
        · exact (Prod.mk.inj hfirst).2
        · exact absurd (hlater _ hlast) (Nat.not_lt.mpr hle)
      · -- The first entry is erased, so that it has to take the place of the one that is dropped.
        rw [List.filter_cons_of_pos (by simpa using hnumber), List.map_cons,
          map_eq_cons_filter_iff hrest hitems]
        constructor
        · rintro ⟨hmem, hbetween⟩ alike -
          refine ⟨List.mem_cons_of_mem _ hmem, fun place other hother _ hle ↦ ?_⟩
          rcases List.mem_cons.mp hother with hfirst | hlast
          · exact (Prod.mk.inj hfirst).2
          · exact hbetween place other hlast hle
        · intro halike
          obtain ⟨hmem, hbetween⟩ := halike start List.mem_cons_self
          exact ⟨hbehind hmem hnumber, fun place other hother ↦
            hbetween place other (List.mem_cons_of_mem _ hother) (hlater _ hother).le⟩
    · have hnumber : start ≠ number := by
        rintro rfl
        exact hsame (hitem first List.mem_cons_self)
      rw [List.map_cons, List.erase_cons_tail (by simpa using hsame),
        List.filter_cons_of_pos (by simpa using hnumber), List.map_cons, List.cons_inj_right,
        ih hrest hitems]
      constructor
      · intro halike alike hmem
        have hmem : (alike, item) ∈ later :=
          (List.mem_cons.mp hmem).resolve_left fun hfirst ↦ hsame (Prod.mk.inj hfirst).2.symm
        obtain ⟨hstands, hbetween⟩ := halike alike hmem
        refine ⟨List.mem_cons_of_mem _ hstands, fun place other hother hle hlast ↦ ?_⟩
        rcases List.mem_cons.mp hother with hfirst | hrest
        · exact absurd (hlater _ hmem) (by simpa [(Prod.mk.inj hfirst).1] using hle)
        · exact hbetween place other hrest hle hlast
      · intro halike alike hmem
        obtain ⟨hstands, hbetween⟩ := halike alike (List.mem_cons_of_mem _ hmem)
        exact ⟨hbehind hstands hnumber, fun place other hother ↦
          hbetween place other (List.mem_cons_of_mem _ hother)⟩

end Entries

/-! ### The bus by the numbers of its subscriptions -/

section Bus

variable [DecidableEq Handler] {bus : Bus Handler} {subscription : Subscription Handler}
variable {desk : Desk Handler} {roll : Roll Handler} {ends : Roll Handler → Nat → Nat}

/-- Of the subscribers for its type, an unsubscription takes away the first one of its handler. -/
theorem subscribersFor_unsubscribe (eventType : String) :
    (bus.unsubscribe subscription).subscribersFor eventType =
      if subscription.eventType = eventType then
        (bus.subscribersFor eventType).erase subscription.handler
      else bus.subscribersFor eventType := by
  obtain ⟨subscriptions⟩ := bus
  unfold unsubscribe subscribersFor
  induction subscriptions with
  | nil => simp
  | cons first later ih =>
    by_cases hsame : first = subscription
    · subst hsame
      simp only [List.erase_cons_head, List.filter_cons, decide_eq_true_eq]
      split
      · rw [List.map_cons, List.erase_cons_head]
      · rfl
    · rw [List.erase_cons_tail (by simpa using hsame)]
      simp only [List.filter_cons, decide_eq_true_eq]
      split
      · next htype =>
        rw [List.map_cons, ih]
        split
        · next hown =>
          have hother : first.handler ≠ subscription.handler := by
            intro hhandler
            cases first
            cases subscription
            simp_all
          rw [List.map_cons, List.erase_cons_tail (by simpa using hother)]
        · rfl
      · exact ih

namespace Desk

/-- Meets a request with the bus. A subscription that is refused is not made. -/
def serve (desk : Desk Handler) : Request Handler → Desk Handler
  | .subscribe subscription =>
    match desk.bus.subscribe subscription with
    | .ok bus => ⟨bus, desk.made ++ [subscription]⟩
    | .error _ => desk
  | .unsubscribe number =>
    match desk.made[number]? with
    | some subscription => { desk with bus := desk.bus.unsubscribe subscription }
    | none => desk

/-- What requests come to on a new bus. -/
def after (requests : List (Request Handler)) : Desk Handler := requests.foldl serve ⟨.empty, []⟩

/-- The subscribers for every type are those that stand on a roll. -/
def GoesBy (desk : Desk Handler) (roll : Roll Handler) : Prop :=
  ∀ eventType, desk.bus.subscribersFor eventType = roll.subscribersFor eventType

theorem serve_subscribe (desk : Desk Handler) (subscription : Subscription Handler) :
    desk.serve (.subscribe subscription) = if subscription.eventType = "" then desk
      else ⟨⟨desk.bus.subscriptions ++ [subscription]⟩, desk.made ++ [subscription]⟩ := by
  by_cases hnamed : subscription.eventType = "" <;> simp [serve, subscribe, hnamed]

theorem after_concat (requests : List (Request Handler)) (request : Request Handler) :
    after (requests ++ [request]) = (after requests).serve request :=
  List.foldl_concat _ _ _ _

/-- The subscriptions made are numbered alike, whatever an unsubscription ends. -/
theorem made_after (ends : Roll Handler → Nat → Nat) (requests : List (Request Handler)) :
    (after requests).made = (Roll.after ends requests).made := by
  induction requests using List.reverseRecOn with
  | nil => rfl
  | append_singleton requests request ih =>
    rw [after_concat, Roll.after_concat]
    cases request with
    | subscribe subscription =>
      rw [serve_subscribe, Roll.serve]
      split <;> simp [ih]
    | unsubscribe number =>
      simp only [serve, Roll.serve]
      split <;> exact ih

theorem GoesBy.subscribe (hgoes : desk.GoesBy roll) (subscription : Subscription Handler) :
    (desk.serve (.subscribe subscription)).GoesBy (roll.serve ends (.subscribe subscription)) := by
  intro eventType
  have hbefore := hgoes eventType
  rw [serve_subscribe, Roll.serve]
  split
  · exact hbefore
  · unfold Bus.subscribersFor Roll.subscribersFor Roll.entriesFor at hbefore ⊢
    rw [List.filter_append, List.filter_append, List.map_append, List.map_append, List.map_append,
      hbefore]
    simp only [List.filter_cons, List.filter_nil]
    split <;> rfl

/-- A bus that goes by the roll still does so after an unsubscription just if that is in turn. -/
theorem GoesBy.unsubscribe_iff (hgoes : desk.GoesBy roll) (hmade : desk.made = roll.made)
    (hkept : roll.Kept) (number : Nat) :
    (desk.serve (.unsubscribe number)).GoesBy (roll.serve Roll.own (.unsubscribe number)) ↔
      roll.InTurn number := by
  rw [serve, hmade]
  obtain hfound | ⟨⟨eventType, handler⟩, hfound⟩ :=
    Option.eq_none_or_eq_some roll.made[number]?
  · have hsame : roll.serve Roll.own (.unsubscribe number) = roll := by
      rw [Roll.serve, Roll.own, hkept.filter_eq_self]
      intro subscription hsome
      cases hfound.symm.trans hsome
    rw [hsame, hfound]
    exact ⟨fun _ _ hsome ↦ (nomatch hfound.symm.trans hsome), fun _ ↦ hgoes⟩
  · have hown {type : String} {other : Handler} (hother : (number, other) ∈ roll.entriesFor type) :
        type = eventType ∧ other = handler :=
      Subscription.mk.inj (Option.some.inj
        ((hkept.made_eq _ (Roll.mem_entriesFor_iff.mp hother)).symm.trans hfound))
    have hbetween := erase_map_eq_filter_iff (hkept.sorted_entriesFor eventType)
      fun other hother ↦ (hown hother).2
    rw [← Roll.entriesFor_unsubscribe, ← Roll.subscribersFor, ← Roll.subscribersFor,
      ← hgoes eventType] at hbetween
    simp only [hfound]
    constructor
    · intro hafter subscription hsubscription alike halike
      obtain rfl := Option.some.inj (hfound.symm.trans hsubscription)
      have hfirst := hafter eventType
      rw [subscribersFor_unsubscribe, if_pos rfl, hbetween] at hfirst
      obtain ⟨hstands, hsame⟩ := hfirst alike (Roll.mem_entriesFor_iff.mpr halike)
      refine ⟨Roll.mem_entriesFor_iff.mp hstands, ?_⟩
      rintro place ⟨_, other⟩ hother hle hlast rfl
      rw [hsame place other (Roll.mem_entriesFor_iff.mpr hother) hle hlast]
    · intro hturn type
      rw [subscribersFor_unsubscribe]
      split
      · next htype =>
        obtain rfl : eventType = type := htype
        refine hbetween.mpr fun alike halike ↦ ?_
        obtain ⟨hstands, hsame⟩ := hturn _ hfound alike (Roll.mem_entriesFor_iff.mp halike)
        refine ⟨Roll.mem_entriesFor_iff.mpr hstands, fun place other hother hle hlast ↦ ?_⟩
        exact (Subscription.mk.inj
          (hsame place _ (Roll.mem_entriesFor_iff.mp hother) hle hlast rfl)).2
      · next htype =>
        rw [hgoes type, Roll.subscribersFor, Roll.subscribersFor, Roll.entriesFor_unsubscribe]
        refine congrArg _ (List.filter_eq_self.mpr fun entry hentry ↦ ?_).symm
        simp only [ne_eq, decide_eq_true_eq]
        rintro rfl
        exact htype (hown hentry).1.symm

/-- A bus goes by the numbers for as long as every unsubscription is in turn, and no longer. -/
theorem goesBy_own_iff (requests : List (Request Handler)) :
    (∀ served, served <+: requests → (after served).GoesBy (Roll.after Roll.own served)) ↔
    ∀ served number, served ++ [.unsubscribe number] <+: requests →
      (Roll.after Roll.own served).InTurn number := by
  constructor
  · intro hgoes served number hserved
    have hbefore := hgoes served ((List.prefix_append _ _).trans hserved)
    have hafter := hgoes _ hserved
    rw [after_concat, Roll.after_concat] at hafter
    exact (hbefore.unsubscribe_iff (made_after _ served) (Roll.kept_after _ served) number).mp
      hafter
  · intro hturn served hserved
    induction served using List.reverseRecOn with
    | nil => exact fun _ ↦ rfl
    | append_singleton served request ih =>
      have hbefore := ih ((List.prefix_append _ _).trans hserved)
      rw [after_concat, Roll.after_concat]
      cases request with
      | subscribe subscription => exact hbefore.subscribe subscription
      | unsubscribe number =>
        exact (hbefore.unsubscribe_iff (made_after _ served) (Roll.kept_after _ served) number).mpr
          (hturn served number hserved)

end Desk

/-- The subscriptions in force are those that stand if every unsubscription ends the oldest that
looks like the one it was asked for. -/
theorem subscriptions_after (requests : List (Request Handler)) :
    (Desk.after requests).bus.subscriptions =
      (Roll.after Roll.oldest requests).standing.map Prod.snd := by
  induction requests using List.reverseRecOn with
  | nil => rfl
  | append_singleton requests request ih =>
    have hmade := Desk.made_after Roll.oldest requests
    have hkept := Roll.kept_after Roll.oldest requests
    rw [Desk.after_concat, Roll.after_concat]
    generalize Desk.after requests = desk, Roll.after Roll.oldest requests = roll at *
    cases request with
    | subscribe subscription =>
      rw [Desk.serve_subscribe, Roll.serve]
      split <;> simp [ih]
    | unsubscribe number =>
      rw [Desk.serve, Roll.serve, hmade]
      rcases Option.eq_none_or_eq_some roll.made[number]? with hfound | ⟨subscription, hfound⟩
      · have hfind :
            roll.standing.find? (fun entry ↦ roll.made[number]? = some entry.2) = none := by
          simp [hfound]
        have holdest : roll.oldest number = number := by rw [Roll.oldest, hfind]
        simp only [hfound, holdest]
        rw [hkept.filter_eq_self, ih]
        intro subscription hsome
        cases hfound.symm.trans hsome
      · simp only [hfound, unsubscribe, ih, erase_map_of_find? hkept.sorted]
        cases hfind : roll.standing.find? fun entry ↦ subscription = entry.2 with
        | some found =>
          have holdest : roll.oldest number = found.1 := by simp [Roll.oldest, hfound, hfind]
          rw [holdest]
        | none =>
          have holdest : roll.oldest number = number := by simp [Roll.oldest, hfound, hfind]
          -- The one asked for does not stand either, as it would have been found.
          rw [holdest, hkept.filter_eq_self]
          intro same hsame hstands
          obtain rfl := Option.some.inj (hfound.symm.trans hsame)
          simpa using List.find?_eq_none.mp hfind _ hstands

/-- An unsubscription ends the oldest subscription of its handler to its type, and not always the
one that it was asked for. The subscribers for every type are, throughout, those whose subscriptions
have not been ended by their own unsubscriptions just if every unsubscription was in turn; and it
was if no handler has been subscribed to a type twice. -/
theorem subscribers_kept_iff_in_turn (requests : List (Request Handler)) :
    (Desk.after requests).GoesBy (Roll.after Roll.oldest requests) ∧
    ((∀ served, served <+: requests → (Desk.after served).GoesBy (Roll.after Roll.own served)) ↔
      ∀ served number, served ++ [.unsubscribe number] <+: requests →
        (Roll.after Roll.own served).InTurn number) ∧
    ((Roll.after Roll.own requests).made.Nodup →
      ∀ served number, served ++ [.unsubscribe number] <+: requests →
        (Roll.after Roll.own served).InTurn number) := by
  refine ⟨fun eventType ↦ ?_, Desk.goesBy_own_iff requests, fun hnodup served number hserved ↦ ?_⟩
  · rw [subscribersFor, subscriptions_after, Roll.subscribersFor, Roll.entriesFor,
      List.filter_map, List.map_map, List.map_map]
    rfl
  · have hmade : (Roll.after Roll.own served).made <+: (Roll.after Roll.own requests).made :=
      Roll.made_prefix_after ((List.prefix_append served [.unsubscribe number]).trans hserved)
    exact (Roll.kept_after _ served).inTurn (hnodup.sublist hmade.sublist) number

/-- A handler that is subscribed twice, with another one in between, loses its older subscription
when the younger one is to end, so that it is called last instead of first; and when the older one
is to end twice, it loses both. -/
theorem subscribers_kept_iff_in_turn_repeated :
    let subscriptions : List (Request String) :=
      [.subscribe ⟨"x", "a"⟩, .subscribe ⟨"x", "b"⟩, .subscribe ⟨"x", "a"⟩]
    let younger := subscriptions ++ [.unsubscribe 2]
    let twice := subscriptions ++ [.unsubscribe 0, .unsubscribe 0]
    (Desk.after younger).bus.subscribersFor "x" = ["b", "a"] ∧
      (Roll.after Roll.own younger).subscribersFor "x" = ["a", "b"] ∧
      (Desk.after twice).bus.subscribersFor "x" = ["b"] ∧
      (Roll.after Roll.own twice).subscribersFor "x" = ["b", "a"] ∧
      ∀ requests ∈ [younger, twice], ¬ ∀ served number,
        served ++ [.unsubscribe number] <+: requests →
          (Roll.after Roll.own served).InTurn number := by
  refine ⟨by decide, by decide, by decide, by decide, ?_⟩
  rintro requests hrequests hturn
  have hgoes := (subscribers_kept_iff_in_turn requests).2.1.mpr hturn requests List.prefix_rfl "x"
  revert hgoes
  simp only [List.mem_cons, List.not_mem_nil, or_false] at hrequests
  rcases hrequests with rfl | rfl <;> decide

end Bus

end TapeRunner.Bus
