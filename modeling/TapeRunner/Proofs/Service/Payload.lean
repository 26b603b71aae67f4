import TapeRunner.Service.Answer

/-!
# What bodies ask for

Which call a request for a route asks for, said field by field (`Asks`): a start names a program and
may set two flags, a change of speed names a whole number within the limits, an instruction is one
of the manual ones, and a text to be fed is not empty. Reading a body comes to the same
(`read_eq_ok_iff`).
-/

set_option autoImplicit false
set_option relaxedAutoImplicit false

namespace TapeRunner

/-! ### Results of readers -/

section

variable {Fault Other First Second : Type}

/-- A sequence of checks has a result if its first part has one from which the rest has it. -/
theorem bind_eq_ok_iff {first : Except Fault First} {next : First → Except Fault Second}
    {result : Second} :
    first >>= next = .ok result ↔ ∃ found, first = .ok found ∧ next found = .ok result := by
  cases first with
  | error fault => exact ⟨nofun, fun ⟨_, hfirst, _⟩ ↦ nomatch hfirst⟩
  | ok found =>
    constructor
    · exact fun hnext ↦ ⟨found, rfl, hnext⟩
    · rintro ⟨_, ⟨⟩, hnext⟩
      exact hnext

/-- What is said of a fault does not matter to a result. -/
theorem mapError_eq_ok_iff {first : Except Fault First} {rename : Fault → Other}
    {result : First} : first.mapError rename = .ok result ↔ first = .ok result := by
  cases first with
  | error fault => exact ⟨nofun, nofun⟩
  | ok found =>
    constructor
    · rintro ⟨⟩
      rfl
    · rintro ⟨⟩
      rfl

end

namespace Reader

variable {Result : Type} {value : Value} {result : Result}

theorem checked_eq_ok_iff {reader : Reader Result} {check : Result → Option Defect} :
    reader.checked check value = .ok result ↔ reader value = .ok result ∧ check result = none := by
  refine bind_eq_ok_iff.trans ⟨?_, ?_⟩
  · rintro ⟨found, hread, hpasses⟩
    cases hcheck : check found with
    | some defect =>
      rw [hcheck] at hpasses
      cases hpasses
    | none =>
      rw [hcheck] at hpasses
      cases hpasses
      exact ⟨hread, hcheck⟩
  · rintro ⟨hread, hcheck⟩
    refine ⟨result, hread, ?_⟩
    rw [hcheck]

theorem text_eq_ok_iff {content : String} : text value = .ok content ↔ value = .text content := by
  cases value <;> simp [text]

/-- A field that is there has the result of its value, and one that is absent what stands for it. -/
theorem field_eq_ok_iff {reader : Reader Result} {location : List String}
    {absent : Except Defect Result} {value? : Option Value} :
    reader.field location absent value? = .ok result ↔
      value?.elim absent reader = .ok result := by
  cases value? with
  | none => exact mapError_eq_ok_iff
  | some value => exact mapError_eq_ok_iff

end Reader

namespace Service

variable {body : Option Value} {fields : Fields} {name : String} {route : Route} {call : Call}

/-! ### Fields -/

theorem fieldsOf_eq_ok_iff : Call.fieldsOf body = .ok fields ↔ body = some (.record fields) := by
  rcases body with _ | value
  · simp [Call.fieldsOf]
  · cases value <;> simp [Call.fieldsOf]

/-- A field that has to be there is read if it is there and its value is read. -/
theorem required_eq_ok_iff {Result : Type} {reader : Reader Result} {result : Result} :
    Call.required fields reader name = .ok result ↔
      ∃ value, fields.get? name = some value ∧ reader value = .ok result := by
  rw [Call.required, Reader.field_eq_ok_iff]
  cases fields.get? name <;> simp

/-- A flag is left open, by its absence or by null, or its value is read as one. -/
def OpenFlag (fields : Fields) (name : String) : Option Bool → Prop
  | none => fields.get? name = none ∨ fields.get? name = some .null
  | some flag => ∃ value, fields.get? name = some value ∧ value ≠ .null ∧
      Reader.flag value = .ok flag

theorem openFlag_eq_ok_iff {flag? : Option Bool} :
    Call.openFlag fields name = .ok flag? ↔ OpenFlag fields name flag? := by
  rw [Call.openFlag, Reader.field_eq_ok_iff]
  cases hvalue : fields.get? name with
  | none => cases flag? <;> simp [OpenFlag, hvalue]
  | some value =>
    have hread (hother : value ≠ .null) :
        Reader.flag.optional value = .ok flag? ↔ OpenFlag fields name flag? := by
      have hoptional : Reader.flag.optional value = (Reader.flag value).map some := by
        cases value <;> first | rfl | exact absurd rfl hother
      rw [hoptional]
      cases flag? <;> cases hflag : Reader.flag value <;>
        simp [OpenFlag, hvalue, hflag, hother, Except.map]
    by_cases hnull : value = .null
    · subst hnull
      cases flag? <;> simp [OpenFlag, hvalue, Reader.optional]
    · exact hread hnull

/-! ### Bodies -/

/-- What a body has to hold to ask for a call of a route. -/
inductive Asks (body : Option Value) : Route → Call → Prop
  | health : Asks body .health .health
  | view : Asks body .session .view
  | start {fields : Fields} {program : String} {directStart superSpeed : Option Bool}
      (hbody : body = some (.record fields))
      (hprogram : fields.get? "program" = some (.text program))
      (hdirect : OpenFlag fields "direct_start" directStart)
      (hsuper : OpenFlag fields "start_super_speed" superSpeed) :
      Asks body .start (.start program directStart superSpeed)
  | stop : Asks body .stop .stop
  | step : Asks body .step .step
  | setSpeed {fields : Fields} {value : Value} {speed : Int}
      (hbody : body = some (.record fields)) (hvalue : fields.get? "speed" = some value)
      (hwhole : Reader.whole value = .ok speed) (hleast : Speed.blocking ≤ speed)
      (hgreatest : speed ≤ Speed.top) : Asks body .speed (.setSpeed speed)
  | faster : Asks body .faster .faster
  | slower : Asks body .slower .slower
  | inject {fields : Fields} {instruction : String} (hbody : body = some (.record fields))
      (hinstruction : fields.get? "instruction" = some (.text instruction))
      (hmanual : instruction ∈ Call.manualInstructions) : Asks body .inject (.inject instruction)
  | feed {fields : Fields} {content : String} (hbody : body = some (.record fields))
      (hcontent : fields.get? "text" = some (.text content)) (hsome : content ≠ "") :
      Asks body .input (.feed content)

/-- A body satisfies what its route declares. -/
def Fits (body : Option Value) (route : Route) : Prop := ∃ call, Asks body route call

theorem readSpeed_eq_ok_iff {value : Value} {speed : Int} :
    Call.readSpeed value = .ok speed ↔
      Reader.whole value = .ok speed ∧ Speed.blocking ≤ speed ∧ speed ≤ Speed.top := by
  rw [Call.readSpeed, Reader.checked_eq_ok_iff]
  refine and_congr_right fun _ ↦ ?_
  unfold Speed.blocking Speed.top
  constructor
  · intro hcheck
    split at hcheck
    · cases hcheck
    · split at hcheck
      · cases hcheck
      · omega
  · rintro ⟨hleast, hgreatest⟩
    rw [if_neg (by omega), if_neg (by omega)]

/-- The manual instructions have one character each. -/
theorem length_of_manual {instruction : String} (hmanual : instruction ∈ Call.manualInstructions) :
    instruction.length = 1 := by
  revert instruction
  decide

theorem readInstruction_eq_ok_iff {value : Value} {instruction : String} :
    Call.readInstruction value = .ok instruction ↔
      value = .text instruction ∧ instruction ∈ Call.manualInstructions := by
  rw [Call.readInstruction, Reader.checked_eq_ok_iff, Reader.text_eq_ok_iff]
  refine and_congr_right fun _ ↦ ?_
  constructor
  · intro hcheck
    split at hcheck
    · cases hcheck
    · split at hcheck
      · cases hcheck
      · split at hcheck
        · assumption
        · cases hcheck
  · intro hmanual
    rw [length_of_manual hmanual, if_neg (by decide), if_neg (by decide), if_pos hmanual]

theorem readInput_eq_ok_iff {value : Value} {content : String} :
    Call.readInput value = .ok content ↔ value = .text content ∧ content ≠ "" := by
  rw [Call.readInput, Reader.checked_eq_ok_iff, Reader.text_eq_ok_iff]
  refine and_congr_right fun _ ↦ ?_
  have hlength : content.length < 1 ↔ content = "" := by
    rw [Nat.lt_one_iff, String.length_eq_zero_iff]
  split
  · next hshort => exact ⟨nofun, fun hsome ↦ absurd (hlength.mp hshort) hsome⟩
  · next hlong => exact ⟨fun _ ↦ mt hlength.mpr hlong, fun _ ↦ rfl⟩

/-- What is read from a single field that has to be there. -/
theorem readSingle_eq_ok_iff {Result : Type} {reader : Reader Result} {callOf : Result → Call} :
    (do return callOf (← Call.required (← Call.fieldsOf body) reader name) : Checked Call) =
        .ok call ↔
      ∃ (fields : Fields) (value : Value) (result : Result), body = some (.record fields) ∧
        fields.get? name = some value ∧ reader value = .ok result ∧ callOf result = call := by
  constructor
  · intro hread
    obtain ⟨fields, hfields, hrest⟩ := bind_eq_ok_iff.mp hread
    obtain ⟨result, hrequired, hcall⟩ := bind_eq_ok_iff.mp hrest
    obtain ⟨value, hvalue, hresult⟩ := required_eq_ok_iff.mp hrequired
    exact ⟨fields, value, result, fieldsOf_eq_ok_iff.mp hfields, hvalue, hresult,
      Except.ok.inj hcall⟩
  · rintro ⟨fields, value, result, hbody, hvalue, hresult, rfl⟩
    refine bind_eq_ok_iff.mpr ⟨fields, fieldsOf_eq_ok_iff.mpr hbody, ?_⟩
    exact bind_eq_ok_iff.mpr ⟨result, required_eq_ok_iff.mpr ⟨value, hvalue, hresult⟩, rfl⟩

/-- What is read for a start: a program, and two flags that may be left open. -/
theorem readStart_eq_ok_iff : Call.read body .start = .ok call ↔
    ∃ (fields : Fields) (program : String) (directStart superSpeed : Option Bool),
      body = some (.record fields) ∧ fields.get? "program" = some (.text program) ∧
      OpenFlag fields "direct_start" directStart ∧
      OpenFlag fields "start_super_speed" superSpeed ∧
      Call.start program directStart superSpeed = call := by
  constructor
  · intro hread
    obtain ⟨fields, hfields, hrest⟩ := bind_eq_ok_iff.mp hread
    obtain ⟨⟨program, directStart, superSpeed⟩, hboth, hcall⟩ := bind_eq_ok_iff.mp hrest
    obtain ⟨hprogram, hflags⟩ := (Checked.both_eq_ok_iff _ _ _ _).mp hboth
    obtain ⟨hdirect, hsuper⟩ := (Checked.both_eq_ok_iff _ _ _ _).mp hflags
    obtain ⟨value, hvalue, htext⟩ := required_eq_ok_iff.mp hprogram
    exact ⟨fields, program, directStart, superSpeed, fieldsOf_eq_ok_iff.mp hfields,
      Reader.text_eq_ok_iff.mp htext ▸ hvalue, openFlag_eq_ok_iff.mp hdirect,
      openFlag_eq_ok_iff.mp hsuper, Except.ok.inj hcall⟩
  · rintro ⟨fields, program, directStart, superSpeed, hbody, hprogram, hdirect, hsuper, rfl⟩
    refine bind_eq_ok_iff.mpr ⟨fields, fieldsOf_eq_ok_iff.mpr hbody, ?_⟩
    refine bind_eq_ok_iff.mpr ⟨(program, directStart, superSpeed), ?_, rfl⟩
    refine (Checked.both_eq_ok_iff _ _ _ _).mpr
      ⟨required_eq_ok_iff.mpr ⟨_, hprogram, rfl⟩, ?_⟩
    exact (Checked.both_eq_ok_iff _ _ _ _).mpr
      ⟨openFlag_eq_ok_iff.mpr hdirect, openFlag_eq_ok_iff.mpr hsuper⟩

/-- A body is read as a call exactly if it asks for that call. -/
theorem read_eq_ok_iff : Call.read body route = .ok call ↔ Asks body route call := by
  constructor
  · intro hread
    cases route with
    | health =>
      cases hread
      exact .health
    | session =>
      cases hread
      exact .view
    | stop =>
      cases hread
      exact .stop
    | step =>
      cases hread
      exact .step
    | faster =>
      cases hread
      exact .faster
    | slower =>
      cases hread
      exact .slower
    | start =>
      obtain ⟨fields, program, directStart, superSpeed, hbody, hprogram, hdirect, hsuper, rfl⟩ :=
        readStart_eq_ok_iff.mp hread
      exact .start hbody hprogram hdirect hsuper
    | speed =>
      obtain ⟨fields, value, speed, hbody, hvalue, hspeed, rfl⟩ := readSingle_eq_ok_iff.mp hread
      obtain ⟨hwhole, hleast, hgreatest⟩ := readSpeed_eq_ok_iff.mp hspeed
      exact .setSpeed hbody hvalue hwhole hleast hgreatest
    | inject =>
      obtain ⟨fields, value, instruction, hbody, hvalue, hinstruction, rfl⟩ :=
        readSingle_eq_ok_iff.mp hread
      obtain ⟨rfl, hmanual⟩ := readInstruction_eq_ok_iff.mp hinstruction
      exact .inject hbody hvalue hmanual
    | input =>
      obtain ⟨fields, value, content, hbody, hvalue, hcontent, rfl⟩ :=
        readSingle_eq_ok_iff.mp hread
      obtain ⟨rfl, hsome⟩ := readInput_eq_ok_iff.mp hcontent
      exact .feed hbody hvalue hsome
  · intro hasks
    cases hasks with
    | health | view | stop | step | faster | slower => rfl
    | start hbody hprogram hdirect hsuper =>
      exact readStart_eq_ok_iff.mpr ⟨_, _, _, _, hbody, hprogram, hdirect, hsuper, rfl⟩
    | setSpeed hbody hvalue hwhole hleast hgreatest =>
      exact readSingle_eq_ok_iff.mpr ⟨_, _, _, hbody, hvalue,
        readSpeed_eq_ok_iff.mpr ⟨hwhole, hleast, hgreatest⟩, rfl⟩
    | inject hbody hinstruction hmanual =>
      exact readSingle_eq_ok_iff.mpr ⟨_, _, _, hbody, hinstruction,
        readInstruction_eq_ok_iff.mpr ⟨rfl, hmanual⟩, rfl⟩
    | feed hbody hcontent hsome =>
      exact readSingle_eq_ok_iff.mpr ⟨_, _, _, hbody, hcontent,
        readInput_eq_ok_iff.mpr ⟨rfl, hsome⟩, rfl⟩

/-- A body that does not fit has findings, and only such a body. -/
theorem not_fits_iff : ¬ Fits body route ↔ ∃ findings, Call.read body route = .error findings := by
  cases hread : Call.read body route with
  | ok call => exact ⟨fun hunfit ↦ absurd ⟨call, read_eq_ok_iff.mp hread⟩ hunfit, nofun⟩
  | error findings =>
    refine ⟨fun _ ↦ ⟨findings, rfl⟩, fun _ ⟨call, hasks⟩ ↦ ?_⟩
    cases hread.symm.trans (read_eq_ok_iff.mpr hasks)

end Service

end TapeRunner
