import TapeRunner.Proofs.Activity
import TapeRunner.Session.Runner

/-!
# What a journal refuses

A journal refuses a line for a number of more than 64 bits, for values nested too deeply or for an
attachment that is no text, and for nothing else (`Journal.write_cases`). A line of plain fields is
never refused where plain fields are bound (`Journal.write_of_plain`). In either case nothing but
the lines of the journal has changed (`Runner.writes_of_refusal`, `Runner.writes_of_plain`).
-/

set_option autoImplicit false
set_option relaxedAutoImplicit false

namespace TapeRunner

/-- The errors of a journal that refuses a line. -/
def Error.isRefusal : Error → Bool
  | .integerRange | .tooDeep | .notText _ => true
  | _ => false

/-! ### Refusals -/

namespace Value

mutual

/-- A flaw of a value is a refusal. -/
theorem isRefusal_of_flaw? (depth : Nat) (value : Value) (error : Error)
    (hflaw : value.flaw? depth = some error) : error.isRefusal = true := by
  cases value with
  | whole number =>
    rw [flaw?] at hflaw
    split at hflaw
    · cases hflaw
    · obtain rfl := Option.some.inj hflaw
      rfl
  | list items =>
    cases items with
    | nil => simp [flaw?] at hflaw
    | cons item items =>
      rw [flaw?] at hflaw
      split at hflaw
      · obtain rfl := Option.some.inj hflaw
        rfl
      · rcases Option.or_eq_some_iff.mp hflaw with hitem | ⟨-, hitems⟩
        · exact isRefusal_of_flaw? _ item error hitem
        · exact isRefusal_of_flawAmong? _ items error hitems
  | record fields =>
    rw [flaw?] at hflaw
    split at hflaw
    · obtain rfl := Option.some.inj hflaw
      rfl
    · exact isRefusal_of_flawInFields? _ fields error hflaw
  | null | flag value | real number | text content => simp [flaw?] at hflaw

theorem isRefusal_of_flawAmong? (depth : Nat) (items : List Value) (error : Error)
    (hflaw : flawAmong? depth items = some error) : error.isRefusal = true := by
  cases items with
  | nil => simp [flawAmong?] at hflaw
  | cons item items =>
    rw [flawAmong?] at hflaw
    rcases Option.or_eq_some_iff.mp hflaw with hitem | ⟨-, hitems⟩
    · exact isRefusal_of_flaw? _ item error hitem
    · exact isRefusal_of_flawAmong? _ items error hitems

theorem isRefusal_of_flawInFields? (depth : Nat) (fields : List (String × Value)) (error : Error)
    (hflaw : flawInFields? depth fields = some error) : error.isRefusal = true := by
  cases fields with
  | nil => simp [flawInFields?] at hflaw
  | cons field fields =>
    rw [flawInFields?] at hflaw
    rcases Option.or_eq_some_iff.mp hflaw with hitem | ⟨-, hitems⟩
    · exact isRefusal_of_flaw? _ field.2 error hitem
    · exact isRefusal_of_flawInFields? _ fields error hitems

end

end Value

theorem Line.isRefusal_of_refusal? (line : Line) (form : Form) {error : Error}
    (hrefused : line.refusal? form = some error) : error.isRefusal = true := by
  cases form with
  | object => exact Value.isRefusal_of_flaw? _ _ _ hrefused
  | console =>
    obtain ⟨name, -, hname⟩ := List.exists_of_findSome?_eq_some hrefused
    split at hname <;> simp_all [Error.isRefusal]
    obtain rfl := hname
    rfl

/-- A line is written, with nothing changed but the lines, or refused. -/
theorem Journal.write_cases (journal : Journal) (level : Level) (event : String)
    (fields : Fields) :
    (∃ lines, journal.write level event fields = .ok { journal with lines }) ∨
      ∃ error, error.isRefusal = true ∧ journal.write level event fields = .error error := by
  unfold write
  split
  · exact .inl ⟨journal.lines, rfl⟩
  · simp only
    split
    · next error hrefused => exact .inr ⟨error, Line.isRefusal_of_refusal? _ _ hrefused, rfl⟩
    · exact .inl ⟨_, rfl⟩

/-! ### Plain fields -/

/-- A value that an object can hold at any depth. -/
def Value.Simple : Value → Prop
  | .whole number => leastInteger ≤ number ∧ number ≤ greatestInteger
  | .null | .flag _ | .real _ | .text _ => True
  | _ => False

/-- Every field is simple, and a text if it stands below a console line. -/
def Fields.Plain (fields : Fields) : Prop :=
  ∀ field ∈ fields, field.2.Simple ∧
    (field.1 ∈ Line.attachmentNames → ∃ content, field.2 = .text content)

namespace Value

theorem Simple.flaw?_eq_none {value : Value} (hsimple : value.Simple) (depth : Nat) :
    value.flaw? depth = none := by
  cases value with
  | whole number =>
    rw [flaw?]
    exact if_pos hsimple
  | list items => exact hsimple.elim
  | record fields => exact hsimple.elim
  | null | flag value | real number | text content => rfl

theorem simple_ofNat {number : Nat} (hsmall : (number : Int) ≤ greatestInteger) :
    (Value.ofNat number).Simple := by
  refine ⟨?_, hsmall⟩
  unfold leastInteger
  omega

theorem Simple.plain {value : Value} (hsimple : value.Simple) : value.plain.Simple := by
  cases value with
  | real number =>
    rw [Value.plain]
    split <;> trivial
  | list items => exact hsimple.elim
  | record fields => exact hsimple.elim
  | null | flag value | whole number | text content => exact hsimple

theorem flawInFields?_eq_none {fields : Fields} (hsimple : ∀ field ∈ fields, field.2.Simple)
    (depth : Nat) : flawInFields? depth (plainFields fields) = none := by
  induction fields with
  | nil => rfl
  | cons field later ih =>
    rw [plainFields, flawInFields?, (hsimple field List.mem_cons_self).plain.flaw?_eq_none,
      Option.none_or]
    exact ih fun other hother ↦ hsimple other (List.mem_cons_of_mem _ hother)

end Value

namespace Fields

variable {fields further : Fields}

theorem simple_put (hsimple : ∀ field ∈ fields, field.2.Simple) (name : String) {value : Value}
    (hvalue : value.Simple) : ∀ field ∈ fields.put name value, field.2.Simple := by
  intro field hfield
  unfold put at hfield
  split at hfield
  · obtain ⟨old, hold, rfl⟩ := List.mem_map.mp hfield
    split
    · exact hvalue
    · exact hsimple old hold
  · rcases List.mem_append.mp hfield with hold | hnew
    · exact hsimple field hold
    · rw [List.mem_singleton.mp hnew]
      exact hvalue

theorem Plain.put (hplain : fields.Plain) (name : String) (content : String) :
    (fields.put name (.text content)).Plain := by
  intro field hfield
  unfold Fields.put at hfield
  split at hfield
  · obtain ⟨old, hold, rfl⟩ := List.mem_map.mp hfield
    split
    · exact ⟨trivial, fun _ ↦ ⟨content, rfl⟩⟩
    · exact hplain old hold
  · rcases List.mem_append.mp hfield with hold | hnew
    · exact hplain field hold
    · rw [List.mem_singleton.mp hnew]
      exact ⟨trivial, fun _ ↦ ⟨content, rfl⟩⟩

/-- Plain fields stay plain with the name of a session. -/
theorem Plain.named (hplain : fields.Plain) (number : Nat) : (fields.join
    [("session_id", .text (Session.nameOf number)), ("component", .text "session")]).Plain :=
  (hplain.put "session_id" _).put "component" "session"

theorem plain_nil : Plain [] := fun _ hfield ↦ absurd hfield List.not_mem_nil

theorem plain_cons {name : String} {value : Value} (hname : name ∉ Line.attachmentNames)
    (hvalue : value.Simple) (hfields : fields.Plain) : Fields.Plain ((name, value) :: fields) := by
  intro field hfield
  rcases List.mem_cons.mp hfield with rfl | hlater
  · exact ⟨hvalue, fun hattached ↦ absurd hattached hname⟩
  · exact hfields field hlater

theorem Plain.append (hplain : fields.Plain) (hfurther : further.Plain) :
    Fields.Plain (fields ++ further) := by
  intro field hfield
  rcases List.mem_append.mp hfield with hmine | hother
  · exact hplain field hmine
  · exact hfurther field hother

theorem Plain.of_line (hown : fields.Plain) (hbound : further.Plain) (level : Level)
    (event : String) : (Line.of level event fields further).fields.Plain := by
  intro field hfield
  have hmem := (List.mem_filter.mp hfield).1
  rcases List.mem_append.mp hmem with hmine | hjoined
  · exact hown field hmine
  · exact hbound field (List.mem_filter.mp hjoined).1

/-- What a line adds for itself to plain fields is simple. -/
theorem Plain.simple_completed (hplain : fields.Plain) (event level : String) :
    ∀ field ∈ ((fields.put "event" (.text event)).put "level" (.text level)).put "timestamp" .null,
      field.2.Simple := by
  have htext (content : String) : (Value.text content).Simple := trivial
  have hnull : Value.null.Simple := trivial
  exact simple_put (simple_put (simple_put (fun field hfield ↦ (hplain field hfield).1) "event"
    (htext event)) "level" (htext level)) "timestamp" hnull

end Fields

/-- A line of plain fields is never refused. -/
theorem Line.refusal?_eq_none {line : Line} (hplain : line.fields.Plain) (form : Form) :
    line.refusal? form = none := by
  cases form with
  | object =>
    rw [refusal?, Value.flaw?, if_neg (by decide)]
    exact Value.flawInFields?_eq_none (hplain.simple_completed line.event line.level.name) _
  | console =>
    refine List.findSome?_eq_none_iff.mpr fun name hname ↦ ?_
    cases hget : line.fields.get? name with
    | none => rfl
    | some value =>
      obtain ⟨field, hfound, rfl⟩ := Option.map_eq_some_iff.mp hget
      have hnamed : field.1 = name := by simpa using List.find?_some hfound
      have hmem := List.mem_reverse.mp (List.mem_of_find?_eq_some hfound)
      obtain ⟨content, hcontent⟩ := (hplain field hmem).2 (hnamed ▸ hname)
      rw [hcontent]

/-- Plain fields are written wherever plain fields are bound. -/
theorem Journal.write_of_plain {journal : Journal} (hbound : journal.context.Plain)
    (level : Level) (event : String) {fields : Fields} (hown : fields.Plain) :
    ∃ lines, journal.write level event fields = .ok { journal with lines } := by
  unfold write
  split
  · exact ⟨journal.lines, rfl⟩
  · simp only [Line.refusal?_eq_none (hown.of_line hbound level event)]
    exact ⟨_, rfl⟩

/-! ### Own fields -/

/-- Names that a line takes for itself, that ask for something beside it, or that stand below it. -/
def Line.reserved : List String := ["event", "level", "timestamp"] ++ requests ++ attachmentNames

namespace Fields

/-- No field has a name that is reserved. -/
def Free (fields : Fields) : Prop := ∀ field ∈ fields, field.1 ∉ Line.reserved

/-- Why the fields cannot be written in a form by themselves. -/
def flaw? (fields : Fields) : Form → Option Error
  | .object => Value.flawInFields? 1 (Value.plainFields fields)
  | .console => none

variable {fields own rest : Fields} {name : String} {value : Value}

theorem free_nil : Free [] := fun _ hfield ↦ absurd hfield List.not_mem_nil

theorem free_cons (hname : name ∉ Line.reserved) (hfields : fields.Free) :
    Free ((name, value) :: fields) := by
  intro field hfield
  rcases List.mem_cons.mp hfield with rfl | hlater
  · exact hname
  · exact hfields field hlater

/-- What is put under a reserved name goes behind the fields without such names. -/
theorem Free.put_append (hfree : own.Free) (hname : name ∈ Line.reserved) (value : Value) :
    put (own ++ rest) name value = own ++ rest.put name value := by
  have hother (field : String × Value) (hfield : field ∈ own) : ¬ field.1 = name :=
    fun hsame ↦ hfree field hfield (hsame ▸ hname)
  have hnone : own.any (·.1 = name) = false := by
    rw [List.any_eq_false]
    simpa using hother
  have hsame : own.map (fun field ↦ if field.1 = name then (name, value) else field) = own := by
    rw [List.map_congr_left fun field hfield ↦ if_neg (hother field hfield), List.map_id']
  unfold put
  simp only [List.any_append, hnone, Bool.false_or, List.map_append, hsame]
  split
  · rfl
  · rw [List.append_assoc]

/-- The first flaw of two lists of fields is one of the first list, or else one of the second. -/
theorem flawInFields?_append (depth : Nat) :
    Value.flawInFields? depth (Value.plainFields (own ++ rest)) =
      (Value.flawInFields? depth (Value.plainFields own)).or
        (Value.flawInFields? depth (Value.plainFields rest)) := by
  induction own with
  | nil => rfl
  | cons field later ih =>
    rw [List.cons_append, Value.plainFields, Value.plainFields, Value.flawInFields?, ih,
      Value.flawInFields?, Option.or_assoc]

end Fields

/-- Where plain fields are bound, it is for its own fields that a line is refused. -/
theorem Line.refusal?_of {own bound : Fields} (hfree : own.Free) (hbound : bound.Plain)
    (level : Level) (event : String) (form : Form) :
    (Line.of level event own bound).refusal? form = own.flaw? form := by
  obtain ⟨rest, hrest, hfields⟩ : ∃ rest : Fields, rest.Plain ∧
      (Line.of level event own bound).fields = own ++ rest := by
    refine ⟨Fields.without (bound.filter fun field ↦ !own.any (·.1 = field.1)) requests, ?_, ?_⟩
    · exact fun field hfield ↦ hbound field (List.mem_filter.mp (List.mem_filter.mp hfield).1).1
    · have hown : own.without requests = own := List.filter_eq_self.mpr fun field hfield ↦ by
        simpa using fun hrequest ↦ hfree field hfield (by simp [reserved, hrequest])
      simp only [Line.of, Fields.fill, Fields.without, List.filter_append] at hown ⊢
      rw [hown]
  cases form with
  | object =>
    rw [refusal?, Value.flaw?, if_neg (by decide), members, hfields,
      hfree.put_append (by decide), hfree.put_append (by decide), hfree.put_append (by decide),
      Fields.flawInFields?_append,
      Value.flawInFields?_eq_none (hrest.simple_completed _ _), Option.or_none]
    rfl
  | console =>
    refine List.findSome?_eq_none_iff.mpr fun name hname ↦ ?_
    rw [hfields]
    cases hget : Fields.get? (own ++ rest) name with
    | none => rfl
    | some value =>
      obtain ⟨field, hfound, rfl⟩ := Option.map_eq_some_iff.mp hget
      have hnamed : field.1 = name := by simpa using List.find?_some hfound
      have hmem := List.mem_reverse.mp (List.mem_of_find?_eq_some hfound)
      rcases List.mem_append.mp hmem with hmine | hjoined
      · exact absurd (by simp [reserved, hnamed, hname]) (hfree field hmine)
      · obtain ⟨content, hcontent⟩ := (hrest field hjoined).2 (hnamed ▸ hname)
        rw [hcontent]

/-- Where plain fields are bound, whether a line is written depends on its own fields. -/
theorem Journal.write_eq {journal : Journal} {own : Fields} (hfree : own.Free)
    (hbound : journal.context.Plain) (level : Level) (event : String) :
    journal.write level event own =
      if level.rank < journal.threshold then .ok journal
      else match own.flaw? journal.form with
        | some error => .error error
        | none => .ok { journal with
            lines := journal.lines.push (Line.of level event own journal.context) } := by
  have hrefusal := Line.refusal?_of hfree hbound level event journal.form
  cases hflaw : own.flaw? journal.form <;> simp only [write, hrefusal, hflaw]

/-! ### Writing lines from a runner -/

namespace Runner

/-- The runner with other lines in its journal. -/
def withLines (runner : Runner) (lines : Array Line) : Runner :=
  { runner with journal := { runner.journal with lines } }

open Activity

/-- Lines of these fields are written from a runner, or their refusal is allowed for. -/
def Writes (halted : Halt → Runner → Prop) (runner : Runner) (fields : Fields) : Prop :=
  ∀ level event, Yields halted (log level event fields) runner fun _ last ↦
    ∃ lines, last = runner.withLines lines

variable {halted : Halt → Runner → Prop} {runner : Runner} {fields : Fields}

/-- A line changes the lines of the journal at most, and is an error only if it is refused. -/
theorem writes_of_refusal (hrefused : ∀ error, error.isRefusal = true →
    halted (.raised error) runner) : runner.Writes halted fields := by
  intro level event
  rw [Yields, log, ends_bind, ends_get]
  rcases runner.journal.write_cases level event fields with
    ⟨lines, hwrite⟩ | ⟨error, hrefusal, hwrite⟩
  · simp only [hwrite]
    exact ⟨lines, rfl⟩
  · simp only [hwrite]
    exact hrefused error hrefusal

/-- A line of plain fields is written. -/
theorem writes_of_plain (hbound : runner.journal.context.Plain) (hown : fields.Plain) :
    runner.Writes halted fields := by
  intro level event
  obtain ⟨lines, hwrite⟩ := Journal.write_of_plain hbound level event hown
  rw [Yields, log, ends_bind, ends_get]
  simp only [hwrite]
  exact ⟨lines, rfl⟩

end Runner

end TapeRunner
