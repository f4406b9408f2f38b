import NekoScript.ValueStack
import Mathlib.Tactic

/-!
# The report of an uncaught error

`JSGetErrorStack` reads `stack` from whatever was thrown, and replaces a tab at
the start of a line by means of the failed program's own `replace` and
`RegExp`.  What that program's objects do when they are used is left to its
realm.
-/

namespace NekoScript

open Programs

/-! ## The failed program -/

/-- A value or the error that was raised, and the state of the program
afterwards. -/
def Script (σ α : Type) := σ → Except JSValue α × σ

namespace Script

variable {σ α β : Type}

def bind (p : Script σ α) (f : α → Script σ β) : Script σ β := fun s =>
  match p s with
  | (.ok value, s) => f value s
  | (.error e, s) => (.error e, s)

instance : Monad (Script σ) where
  pure value := fun s => (.ok value, s)
  bind := bind

def raise (e : JSValue) : Script σ α := fun s => (.error e, s)

end Script

/-- What the globals and prototypes of a program have become. -/
structure Realm (σ : Type) where
  /-- A property of an object, or of a primitive through its prototype. -/
  get : JSValue → String → Script σ JSValue
  getGlobal : String → Script σ JSValue
  construct : JSValue → List JSValue → Script σ JSValue
  call : (function this : JSValue) → List JSValue → Script σ JSValue
  /-- A new `TypeError` with this message. -/
  typeError : String → Script σ JSValue
  objectToString : JSValue → Script σ DukString
  /-- The coercion of a number, buffer, pointer or light function, which runs
  no script. -/
  scalarToString : JSValue → DukString

namespace Realm

variable {σ : Type} (realm : Realm σ)

def getProp : JSValue → String → Script σ JSValue
  | .undefined, key => noProperties key "undefined"
  | .null, key => noProperties key "null"
  | base, key => realm.get base key
where
  noProperties (key base : String) : Script σ JSValue := do
    let e ← realm.typeError ("cannot read property '" ++ key ++ "' of " ++ base)
    Script.raise e

/-- `duk_to_string` -/
def toText : JSValue → Script σ DukString
  | .undefined => pure (lexerString "undefined".toList)
  | .null => pure (lexerString "null".toList)
  | .boolean true => pure (lexerString "true".toList)
  | .boolean false => pure (lexerString "false".toList)
  | .string text => pure text
  | .number value => pure (realm.scalarToString (.number value))
  | .other truthy => pure (realm.scalarToString (.other truthy))
  | v => realm.objectToString v

/-- `duk_safe_to_string`: an error is coerced in place of the value, once. -/
def safeToText (v : JSValue) (s : σ) : DukString × σ :=
  match realm.toText v s with
  | (.ok text, s) => (text, s)
  | (.error e, s) =>
      match realm.toText e s with
      | (.ok text, s) => (text, s)
      | (.error _, s) => (lexerString "Error".toList, s)

/-- `(function(s,h,i,t){return s.replace(new RegExp(h,t),i)})` -/
def replaceFunction (s h i t : JSValue) : Script σ JSValue := do
  let replace ← realm.getProp s "replace"
  let regExp ← realm.getGlobal "RegExp"
  let pattern ← realm.construct regExp [h, t]
  realm.call replace s [pattern, i]

end Realm

/-! ## `Helper.cpp` -/

structure ReportState (σ : Type) where
  stack : ValueFrame
  script : σ

/-- What ends native code without a result. -/
inductive ReportFault where
  /-- `std::runtime_error`, a C++ exception. -/
  | runtimeError (message : DukString)
  /-- `std::string` of the null pointer. -/
  | nullString
  | stackUnderflow
  deriving DecidableEq

inductive ReportOp where
  | dupTop
  | push (value : JSValue)
  | pop
  /-- `duk_safe_call` of `JSGetErrorStackInternal` with one argument. -/
  | safeCall
  | safeToString
  /-- `std::string` of `duk_get_string` -/
  | stdString
  /-- `duk_peval_string` of the function, which nothing can make fail. -/
  | evalFunction
  | pcall (nargs : ℕ)
  | throw (message : DukString)

@[reducible] def ReportOp.Answer : ReportOp → Type
  | .stdString => DukString
  -- whether the call failed
  | .pcall _ => Bool
  | .throw _ => Empty
  | _ => Unit

abbrev ReportProgram (α : Type) := Program ReportOp ReportOp.Answer α

def reportOp (op : ReportOp) : ReportProgram op.Answer :=
  .perform op .pure

section Perform

variable {σ : Type} (realm : Realm σ)

/-- The value on top of the frame is left above it, and its `stack` above. -/
def jsGetErrorStackInternal : ValueFrame → Script σ ValueFrame
  | [] => pure []
  | v :: frame => do
      let stack ← realm.getProp v "stack"
      pure (stack :: v :: frame)

/-- One result, or the error, in place of `nargs` arguments. -/
def protectedCall (nargs : ℕ) (f : Script σ ValueFrame) (s : ReportState σ) :
    Bool × ReportState σ :=
  match f s.script with
  | (.ok frame, script) => (false, ⟨frame.take 1 ++ s.stack.drop nargs, script⟩)
  | (.error e, script) => (true, ⟨e :: s.stack.drop nargs, script⟩)

def callReplace (s : ReportState σ) : Script σ ValueFrame :=
  match s.stack with
  | t :: i :: h :: str :: _ => do
      let result ← realm.replaceFunction str h i t
      pure [result]
  | _ => pure []

def performReportOp : (op : ReportOp) → ReportState σ →
    Except ReportFault op.Answer × ReportState σ
  | .dupTop, ⟨v :: frame, script⟩ => (.ok (), ⟨v :: v :: frame, script⟩)
  | .push value, s => (.ok (), { s with stack := value :: s.stack })
  | .pop, ⟨_ :: frame, script⟩ => (.ok (), ⟨frame, script⟩)
  | .safeCall, s =>
      (.ok (), (protectedCall 1 (jsGetErrorStackInternal realm s.stack) s).2)
  | .safeToString, ⟨v :: frame, script⟩ =>
      let coerced := realm.safeToText v script
      (.ok (), ⟨.string coerced.1 :: frame, coerced.2⟩)
  | .stdString, ⟨.string text :: frame, script⟩ =>
      (.ok (cString text), ⟨.string text :: frame, script⟩)
  | .stdString, s => (.error .nullString, s)
  | .evalFunction, s => (.ok (), { s with stack := .newObject :: s.stack })
  -- the function is taken off the stack with its arguments
  | .pcall nargs, s =>
      let called := protectedCall (nargs + 1) (callReplace realm s) s
      (.ok called.1, called.2)
  | .throw message, s => (.error (.runtimeError message), s)
  | _, s => (.error .stackUnderflow, s)

end Perform

def throwSafeString {α : Type} : ReportProgram α := do
  reportOp .safeToString
  let msg : DukString ← reportOp .stdString
  reportOp .pop
  .perform (.throw msg) fun answer => nomatch answer

def jsReplaceString (str pattern replacement option : DukString) :
    ReportProgram DukString := do
  reportOp .evalFunction
  reportOp (.push (.string (cString str)))
  reportOp (.push (.string (cString pattern)))
  reportOp (.push (.string (cString replacement)))
  reportOp (.push (.string (cString option)))
  let result : Bool ← reportOp (.pcall 4)
  if result then throwSafeString
  else do
    let output : DukString ← reportOp .stdString
    reportOp .pop
    pure output

def jsGetErrorStack : ReportProgram DukString := do
  reportOp .dupTop
  reportOp .safeCall
  reportOp .safeToString
  let result : DukString ← reportOp .stdString
  reportOp .pop
  jsReplaceString result (lexerString "^\\t".toList) (lexerString " *  ".toList)
    (lexerString "mg".toList)

/-! ## What is asked of it -/

/-- Whether `^` matches behind these bytes, the last one first.  A line ends with
LF, CR, U+2028 or U+2029. -/
def atLineStart : List UInt8 → Bool
  | [] => true
  | last :: before =>
      last = 0x0A || last = 0x0D ||
        ((last = 0xA8 || last = 0xA9) && before.take 2 = [0x80, 0xE2])

def replaceTabsAfter : (before : List UInt8) → DukString → DukString
  | _, [] => []
  | before, byte :: rest =>
      (if byte = 0x09 ∧ atLineStart before = true then lexerString " *  ".toList
        else [byte]) ++ replaceTabsAfter (byte :: before) rest

/-- The text with the tab replaced at the start of each line. -/
def replaceTabs (text : DukString) : DukString := replaceTabsAfter [] text

section Report

variable {σ : Type} (realm : Realm σ) (script : σ) (v : JSValue)

/-- The string form of what was thrown, where it was thrown. -/
def stringForm : DukString := (realm.safeToText v script).1

/-- The report is made without a fault, leaves the value stack as it was, and
gives the stack text, or the string form, of what was thrown. -/
def ReportedFaithfully (frame : ValueFrame) : Prop :=
  ∃ text after, jsGetErrorStack.exec (performReportOp realm) ⟨v :: frame, script⟩ =
      (.ok text, after) ∧
    after.stack = v :: frame ∧
    match realm.getProp v "stack" script with
    | (.ok (.string stack), _) => text = replaceTabs stack
    | _ => stringForm realm script v <:+: text

/-- The program's own `text.replace(new RegExp("^\\t", "mg"), " *  ")`. -/
def replaceExpression (text : DukString) : Except JSValue JSValue × σ :=
  realm.replaceFunction (.string text) (.string (lexerString "^\\t".toList))
    (.string (lexerString " *  ".toList)) (.string (lexerString "mg".toList)) script

/-- The program has not changed what `replace` and `RegExp` do to this text. -/
def ReplacesTabs (text : DukString) : Prop :=
  ∃ result, (replaceExpression realm script text).1 = .ok (.string result) ∧
    cString result = replaceTabs text

/-- The string form of the value of `stack`, or of the error that reading it
raised. -/
def reportedText : DukString × σ :=
  match realm.getProp v "stack" script with
  | (.ok stack, script) => realm.safeToText stack script
  | (.error e, script) => realm.safeToText e script

/-- Either there is a stack text without U+0000 and its tabs can be replaced, or
what is reported instead of one, once it has been through `replace`, has the
string form of the value in it. -/
def Reportable : Prop :=
  match realm.getProp v "stack" script with
  | (.ok (.string stack), script) => 0 ∉ stack ∧ ReplacesTabs realm script stack
  | _ =>
      let reported := reportedText realm script v
      ∃ result,
        (replaceExpression realm reported.2 (cString reported.1)).1 =
          .ok (.string result) ∧
        stringForm realm script v <:+: cString result

end Report

/-! ## The run of the report -/

section Run

variable {σ : Type} {realm : Realm σ}

theorem cString_patterns :
    cString (lexerString "^\\t".toList) = lexerString "^\\t".toList ∧
      cString (lexerString " *  ".toList) = lexerString " *  ".toList ∧
      cString (lexerString "mg".toList) = lexerString "mg".toList := by
  decide

/-- What `JSReplaceString` comes to, by the outcome of the script's expression. -/
def replaceOutcome (realm : Realm σ) (frame : ValueFrame) :
    Except JSValue JSValue × σ → Except ReportFault DukString × ReportState σ
  | (.ok (.string result), script) => (.ok (cString result), ⟨frame, script⟩)
  | (.ok value, script) => (.error .nullString, ⟨value :: frame, script⟩)
  | (.error e, script) =>
      let coerced := realm.safeToText e script
      (.error (.runtimeError (cString coerced.1)), ⟨frame, coerced.2⟩)

variable {frame : ValueFrame} {script : σ}

theorem exec_reportOp
    {α : Type} {op : ReportOp} {answer : op.Answer} {s s' : ReportState σ}
    (hperform : performReportOp realm op s = (.ok answer, s'))
    (f : op.Answer → ReportProgram α) :
    ((reportOp op).bind f).exec (performReportOp realm) s =
      (f answer).exec (performReportOp realm) s' :=
  Program.exec_perform hperform

/-- The five values of the call are replaced by its result or its error. -/
theorem perform_pcall
    (realm : Realm σ) (script : σ) (frame : ValueFrame)
    (function str pattern replacement option : JSValue) :
    performReportOp realm (.pcall 4)
        ⟨option :: replacement :: pattern :: str :: function :: frame, script⟩ =
      match realm.replaceFunction str pattern replacement option script with
      | (.ok value, script) => (.ok false, ⟨value :: frame, script⟩)
      | (.error e, script) => (.ok true, ⟨e :: frame, script⟩) := by
  have hcall : callReplace realm
      ⟨option :: replacement :: pattern :: str :: function :: frame, script⟩ =
        (realm.replaceFunction str pattern replacement option).bind
          fun result => fun s => (.ok [result], s) := rfl
  simp only [performReportOp, protectedCall, hcall, Script.bind]
  cases realm.replaceFunction str pattern replacement option script with
  | mk outcome after => cases outcome <;> rfl

theorem exec_throwSafeString {α : Type} (e : JSValue) :
    (throwSafeString : ReportProgram α).exec (performReportOp realm)
        ⟨e :: frame, script⟩ =
      (.error (.runtimeError (cString (realm.safeToText e script).1)),
        ⟨frame, (realm.safeToText e script).2⟩) := rfl

theorem exec_jsReplaceString
    (realm : Realm σ) (script : σ) (frame : ValueFrame) (str : DukString) :
    (jsReplaceString str (lexerString "^\\t".toList) (lexerString " *  ".toList)
      (lexerString "mg".toList)).exec (performReportOp realm) ⟨frame, script⟩ =
      replaceOutcome realm frame (replaceExpression realm script (cString str)) := by
  rcases cString_patterns with ⟨hpattern, hreplacement, hoption⟩
  have hcall := perform_pcall realm script frame .newObject (.string (cString str))
    (.string (lexerString "^\\t".toList)) (.string (lexerString " *  ".toList))
    (.string (lexerString "mg".toList))
  unfold jsReplaceString
  rw [hpattern, hreplacement, hoption]
  simp only [Program.monad_bind]
  rw [exec_reportOp rfl, exec_reportOp rfl, exec_reportOp rfl, exec_reportOp rfl,
    exec_reportOp rfl]
  unfold replaceExpression
  cases hexpr : realm.replaceFunction (.string (cString str))
      (.string (lexerString "^\\t".toList)) (.string (lexerString " *  ".toList))
      (.string (lexerString "mg".toList)) script with
  | mk outcome after =>
      rw [hexpr] at hcall
      cases outcome with
      | error e =>
          rw [exec_reportOp hcall]
          exact exec_throwSafeString e
      | ok value =>
          rw [exec_reportOp hcall]
          cases value <;> rfl

theorem exec_jsGetErrorStack
    (realm : Realm σ) (script : σ) (v : JSValue) (frame : ValueFrame) :
    jsGetErrorStack.exec (performReportOp realm) ⟨v :: frame, script⟩ =
      replaceOutcome realm (v :: frame)
        (replaceExpression realm (reportedText realm script v).2
          (cString (reportedText realm script v).1)) := by
  have hcut : ∀ text, cString (cString text) = cString text :=
    fun text => cString_eq_self (zero_notMem_cString text)
  have hcall : performReportOp realm .safeCall ⟨v :: v :: frame, script⟩ =
      match realm.getProp v "stack" script with
      | (.ok stack, script) => (.ok (), ⟨stack :: v :: frame, script⟩)
      | (.error e, script) => (.ok (), ⟨e :: v :: frame, script⟩) := by
    have hread : jsGetErrorStackInternal realm (v :: v :: frame) =
        (realm.getProp v "stack").bind fun stack =>
          fun s => (.ok (stack :: v :: v :: frame), s) := rfl
    simp only [performReportOp, protectedCall, hread, Script.bind]
    cases realm.getProp v "stack" script with
    | mk outcome after => cases outcome <;> rfl
  unfold jsGetErrorStack reportedText
  simp only [Program.monad_bind]
  rw [exec_reportOp rfl]
  cases hread : realm.getProp v "stack" script with
  | mk outcome after =>
      rw [hread] at hcall
      cases outcome with
      | ok stack =>
          rw [exec_reportOp hcall, exec_reportOp rfl, exec_reportOp rfl, exec_reportOp rfl,
            exec_jsReplaceString, hcut]
      | error e =>
          rw [exec_reportOp hcall, exec_reportOp rfl, exec_reportOp rfl, exec_reportOp rfl,
            exec_jsReplaceString, hcut]

theorem replaceOutcome_ok_iff
    {outcome : Except JSValue JSValue × σ} {text : DukString} {after : ReportState σ} :
    replaceOutcome realm frame outcome = (.ok text, after) ↔
      ∃ result, outcome.1 = .ok (.string result) ∧ cString result = text ∧
        after = ⟨frame, outcome.2⟩ := by
  rcases outcome with ⟨outcome, last⟩
  cases outcome with
  | error e => simp [replaceOutcome]
  | ok value =>
      cases value <;> simp [replaceOutcome, eq_comm]

/-- The report ends without a fault exactly if the script's expression gives a
string, and then the value stack is as it was. -/
theorem exists_report_iff
    (realm : Realm σ) (script : σ) (v : JSValue) (frame : ValueFrame)
    (P : DukString → Prop) :
    (∃ text after, jsGetErrorStack.exec (performReportOp realm) ⟨v :: frame, script⟩ =
        (.ok text, after) ∧ after.stack = v :: frame ∧ P text) ↔
      ∃ result,
        (replaceExpression realm (reportedText realm script v).2
          (cString (reportedText realm script v).1)).1 = .ok (.string result) ∧
        P (cString result) := by
  rw [exec_jsGetErrorStack]
  simp only [replaceOutcome_ok_iff]
  constructor
  · rintro ⟨text, after, ⟨result, hresult, rfl, _⟩, _, htext⟩
    exact ⟨result, hresult, htext⟩
  · rintro ⟨result, hresult, htext⟩
    exact ⟨_, _, ⟨result, hresult, rfl, rfl⟩, rfl, htext⟩

theorem zero_mem_replaceTabsAfter (before : List UInt8) (text : DukString) :
    0 ∈ replaceTabsAfter before text ↔ 0 ∈ text := by
  induction text generalizing before with
  | nil => simp [replaceTabsAfter]
  | cons byte rest ih =>
      rw [replaceTabsAfter, List.mem_append, List.mem_cons, ih]
      by_cases htab : byte = 0x09 ∧ atLineStart before = true
      · have hbullet : (0 : UInt8) ∉ lexerString " *  ".toList := by decide
        have hbyte : (0 : UInt8) ≠ byte := by
          rw [htab.1]
          decide
        rw [if_pos htab]
        simp only [hbullet, hbyte]
      · simp [htab]

/-- The text of a report has no U+0000, so a stack text with one is not
reported as it is. -/
theorem replaced_iff (realm : Realm σ) (script : σ) (stack : DukString) :
    (∃ result,
        (replaceExpression realm script (cString stack)).1 = .ok (.string result) ∧
        cString result = replaceTabs stack) ↔
      0 ∉ stack ∧ ReplacesTabs realm script stack := by
  by_cases hzero : 0 ∈ stack
  · have hne : ∀ result, cString result ≠ replaceTabs stack := by
      intro result hsame
      apply zero_notMem_cString result
      rw [hsame]
      exact (zero_mem_replaceTabsAfter [] stack).mpr hzero
    simp [hzero, hne]
  · rw [cString_eq_self hzero]
    exact (and_iff_right hzero).symm

/-- What decides in every program, whatever it has changed. -/
theorem reportedFaithfully_iff_reportable
    (realm : Realm σ) (script : σ) (v : JSValue) (frame : ValueFrame) :
    ReportedFaithfully realm script v frame ↔ Reportable realm script v := by
  unfold ReportedFaithfully Reportable
  rw [exists_report_iff realm script v frame fun text =>
    match realm.getProp v "stack" script with
    | (.ok (.string stack), _) => text = replaceTabs stack
    | _ => stringForm realm script v <:+: text]
  cases hread : realm.getProp v "stack" script with
  | mk outcome after =>
      cases outcome with
      | error e => exact Iff.rfl
      | ok stack =>
          cases stack with
          | string stack =>
              have hreported : reportedText realm script v = (stack, after) := by
                unfold reportedText
                rw [hread]
                rfl
              rw [hreported]
              exact replaced_iff realm after stack
          | _ => exact Iff.rfl

/-! ## Programs that have not changed `replace` and `RegExp` -/

/-- The program finds the engine's `replace` and `RegExp` without running
script, and they do to a text what they always do. -/
structure Realm.Intact (realm : Realm σ) (replace regExp : JSValue) : Prop where
  getProp_replace : ∀ text script,
    realm.getProp (.string text) "replace" script = (.ok replace, script)
  getGlobal_regExp : ∀ script, realm.getGlobal "RegExp" script = (.ok regExp, script)
  replaces : ∀ text script, 0 ∉ text →
    ∃ pattern created last,
      realm.construct regExp
          [.string (lexerString "^\\t".toList), .string (lexerString "mg".toList)] script =
        (.ok pattern, created) ∧
      realm.call replace (.string text) [pattern, .string (lexerString " *  ".toList)]
          created =
        (.ok (.string (replaceTabs text)), last)

/-- What was thrown has a stack text without U+0000, or what stands in the place of
its `stack`, or the error that reading it raised, has its string form in it. -/
def StackReported (realm : Realm σ) (script : σ) (v : JSValue) : Prop :=
  match realm.getProp v "stack" script with
  | (.ok (.string stack), _) => 0 ∉ stack
  | (.ok value, after) => stringForm realm script v <:+:
      replaceTabs (cString (realm.safeToText value after).1)
  | (.error e, after) => stringForm realm script v <:+:
      replaceTabs (cString (realm.safeToText e after).1)

variable {replace regExp : JSValue}

theorem Realm.Intact.replaceExpression_eq
    (hintact : realm.Intact replace regExp) (script : σ) {text : DukString}
    (hzero : 0 ∉ text) :
    (replaceExpression realm script text).1 = .ok (.string (replaceTabs text)) := by
  rcases hintact.replaces text script hzero with ⟨pattern, created, last, hcreated, hcall⟩
  have hexpr : replaceExpression realm script text =
      (realm.getProp (.string text) "replace").bind (fun replace =>
        (realm.getGlobal "RegExp").bind fun regExp =>
          (realm.construct regExp [.string (lexerString "^\\t".toList),
            .string (lexerString "mg".toList)]).bind fun pattern =>
              realm.call replace (.string text)
                [pattern, .string (lexerString " *  ".toList)]) script := rfl
  rw [hexpr]
  simp only [Script.bind, hintact.getProp_replace, hintact.getGlobal_regExp, hcreated, hcall]

theorem cString_replaceTabs {text : DukString} (hzero : 0 ∉ text) :
    cString (replaceTabs text) = replaceTabs text := by
  apply cString_eq_self
  unfold replaceTabs
  rwa [zero_mem_replaceTabsAfter]

theorem exists_report_of_intact
    (hintact : realm.Intact replace regExp) (script : σ) (v : JSValue)
    (frame : ValueFrame) :
    ∃ last, jsGetErrorStack.exec (performReportOp realm) ⟨v :: frame, script⟩ =
      (.ok (replaceTabs (cString (reportedText realm script v).1)),
        ⟨v :: frame, last⟩) := by
  have hzero := zero_notMem_cString (reportedText realm script v).1
  have hresult := hintact.replaceExpression_eq (reportedText realm script v).2 hzero
  rw [exec_jsGetErrorStack]
  exact ⟨_, replaceOutcome_ok_iff.mpr ⟨_, hresult, cString_replaceTabs hzero, rfl⟩⟩

/-- Then a stack text is reported, and of anything else what stands in the place
of its `stack`. -/
theorem reportable_iff_of_intact
    (hintact : realm.Intact replace regExp) (script : σ) (v : JSValue) :
    Reportable realm script v ↔ StackReported realm script v := by
  have hinstead : (∃ result,
      (replaceExpression realm (reportedText realm script v).2
        (cString (reportedText realm script v).1)).1 = .ok (.string result) ∧
      stringForm realm script v <:+: cString result) ↔
        stringForm realm script v <:+:
          replaceTabs (cString (reportedText realm script v).1) := by
    have hzero := zero_notMem_cString (reportedText realm script v).1
    rw [hintact.replaceExpression_eq _ hzero]
    simp [cString_replaceTabs hzero]
  have hstack : ∀ stack after, ReplacesTabs realm after stack ∨ 0 ∈ stack := by
    intro stack after
    by_cases hzero : 0 ∈ stack
    · exact .inr hzero
    · exact .inl ⟨_, hintact.replaceExpression_eq after hzero, cString_replaceTabs hzero⟩
  unfold Reportable StackReported
  cases hread : realm.getProp v "stack" script with
  | mk outcome after =>
      unfold reportedText at hinstead
      rw [hread] at hinstead
      cases outcome with
      | error e =>
          unfold reportedText
          rw [hread]
          exact hinstead
      | ok stack =>
          cases stack with
          | string stack =>
              exact and_iff_left_of_imp fun hzero => (hstack stack after).resolve_right hzero
          | _ =>
              unfold reportedText
              rw [hread]
              exact hinstead

/-- Whatever has no `stack` is reported as `undefined`. -/
theorem stackReported_iff_of_noStack
    {script after : σ} {v : JSValue}
    (hread : realm.getProp v "stack" script = (.ok .undefined, after)) :
    StackReported realm script v ↔
      stringForm realm script v <:+: lexerString "undefined".toList := by
  have htext : replaceTabs (cString (lexerString "undefined".toList)) =
      lexerString "undefined".toList := by decide
  unfold StackReported
  rw [hread, ← htext]
  rfl

end Run

/-- A program that throws 42 and has changed nothing. -/
def plainRealm : Realm Unit where
  get _ key := pure (if key = "replace" then .object 1 else .undefined)
  getGlobal _ := pure (.object 2)
  construct _ _ := pure (.object 3)
  call _ this _ :=
    match this with
    | .string text => pure (.string (replaceTabs text))
    | _ => pure .undefined
  typeError _ := pure (.object 4)
  objectToString _ := pure (lexerString "[object Object]".toList)
  scalarToString _ := lexerString "42".toList

theorem intact_plainRealm : plainRealm.Intact (.object 1) (.object 2) where
  getProp_replace := fun _ _ => rfl
  getGlobal_regExp := fun _ => rfl
  replaces := fun _ _ _ => ⟨.object 3, (), (), rfl, rfl⟩

end NekoScript
