/-
Three ways to give the program what it evaluates.

A text that is a line of its own can be given as an argument as well.  It is then evaluated
as it stands, while a session gets its bytes, decodes and trims them.
-/

import Abacus.CommandLine.Report
import Abacus.Proofs.Transcript

namespace Abacus

/-! ### The bytes of a line -/

namespace Text

def bytes (text : String) : List UInt8 :=
  text.toUTF8.data.toList

theorem bytes_eq_flatMap (text : String) :
    bytes text = text.toList.flatMap String.utf8EncodeChar := by
  rw [bytes, String.toUTF8_eq_toByteArray, ← String.utf8Encode_toList, List.utf8Encode,
    List.data_toByteArray, List.toList_toArray]

/-- All bytes of a character outside of ASCII are at least 128. -/
theorem le_of_mem_utf8EncodeChar {character : Char} {byte : UInt8}
    (outside : 127 < character.val.toNat) (member : byte ∈ String.utf8EncodeChar character) :
    128 ≤ byte.toNat := by
  have high {number : Nat} (least : 128 ≤ number) (small : number < 256) :
      128 ≤ (UInt8.ofNat number).toNat := by
    rw [UInt8.toNat_ofNat', Nat.mod_eq_of_lt small]
    exact least
  unfold String.utf8EncodeChar at member
  simp only [if_neg (Nat.not_le_of_lt outside)] at member
  split at member
  · simp only [List.mem_cons, List.not_mem_nil, or_false] at member
    rcases member with rfl | rfl <;> exact high (by omega) (by omega)
  · split at member
    · simp only [List.mem_cons, List.not_mem_nil, or_false] at member
      rcases member with rfl | rfl | rfl <;> exact high (by omega) (by omega)
    · simp only [List.mem_cons, List.not_mem_nil, or_false] at member
      rcases member with rfl | rfl | rfl | rfl <;> exact high (by omega) (by omega)

theorem eq_lineFeed_of_mem_utf8EncodeChar {character : Char}
    (member : 0x0a ∈ String.utf8EncodeChar character) : character = '\n' := by
  rcases Nat.lt_or_ge 127 character.val.toNat with outside | ascii
  · exact absurd (le_of_mem_utf8EncodeChar outside member) (by decide)
  · have single : String.utf8EncodeChar character = [UInt8.ofNat character.val.toNat] := if_pos ascii
    rw [single] at member
    have value : 10 = (UInt8.ofNat character.val.toNat).toNat :=
      congrArg UInt8.toNat (List.mem_singleton.mp member)
    rw [UInt8.toNat_ofNat', Nat.mod_eq_of_lt (Nat.lt_of_le_of_lt ascii (by decide))] at value
    exact Char.toNat_inj.mp value.symm

theorem not_mem_bytes {text : String} (free : '\n' ∉ text.toList) : 0x0a ∉ bytes text := by
  rw [bytes_eq_flatMap]
  intro member
  obtain ⟨character, inText, encoded⟩ := List.mem_flatMap.mp member
  rw [eq_lineFeed_of_mem_utf8EncodeChar encoded] at inText
  exact free inText

theorem fromUTF8?_bytes (text : String) : String.fromUTF8? ⟨(bytes text).toArray⟩ = some text := by
  have valid : text.toUTF8.IsValidUTF8 := by
    rw [String.toUTF8_eq_toByteArray]
    exact text.isValidUTF8
  exact dif_pos valid

theorem bytes_ne_nil {text : String} (notEmpty : text ≠ "") : bytes text ≠ [] := by
  intro nothing
  have decoded := fromUTF8?_bytes text
  rw [nothing] at decoded
  exact notEmpty (Option.some.inj decoded).symm

end Text

/-- A text that a session takes for one line, from which nothing is trimmed. -/
structure IsLine (text : String) : Prop where
  notEmpty : text ≠ ""
  free : '\n' ∉ text.toList
  first : ∀ character ∈ text.toList.head?, Unicode.isWhiteSpace character = false
  last : ∀ character ∈ text.toList.getLast?, Unicode.isWhiteSpace character = false
  stays : text ≠ Session.exitCommand

namespace CommandLine

/-! ### Arguments -/

theorem isDigit_of_mem_toString (number : Nat) :
    ∀ digit ∈ (toString number).toList, digit.isDigit = true := by
  intro digit member
  rw [Nat.toString_eq_repr, Nat.toList_repr] at member
  exact Nat.isDigit_of_mem_toDigits (by decide) (by decide) member

theorem isOption_toString (number : Nat) : isOption (toString number) = false := by
  have digits := isDigit_of_mem_toString number
  unfold isOption
  split
  · next dash =>
      rw [dash] at digits
      cases digits '-' List.mem_cons_self
  · rfl

theorem places?_toString (number : Nat) :
    Draft.places? (toString number) = if number < Nat.pow 2 64 then some number else none := by
  have digits := isDigit_of_mem_toString number
  have value : Nat.ofDigitChars 10 (toString number).toList 0 = number := by
    rw [Nat.toString_eq_repr, Nat.toList_repr, Nat.ofDigitChars_ten_toDigits]
  have nonempty : (toString number).toList ≠ [] := by
    rw [Nat.toString_eq_repr, Nat.toList_repr]
    exact Nat.toDigits_ne_nil
  unfold Draft.places?
  split
  next first plus =>
    rw [plus] at digits
    cases digits '+' List.mem_cons_self
  next =>
    have all : (toString number).toList.all Char.isDigit = true := List.all_eq_true.mpr digits
    simp only [nonempty, all, value, Bool.not_true, decide_false, Bool.or_false,
      Bool.false_eq_true, if_false]

theorem readArguments_value {draft next : Draft} {flag : Flag} {value : String}
    (notOption : isOption value = false) (sets : draft.setValue flag value = .ok next)
    (rest : List String) :
    readArguments draft (some flag) (value :: rest) = readArguments next none rest := by
  simp only [readArguments, notOption, Bool.false_eq_true, if_false, sets]

theorem readArguments_misuse {draft : Draft} {flag : Flag} {value : String} {misuse : Misuse}
    (notOption : isOption value = false) (refuses : draft.setValue flag value = .error misuse)
    (rest : List String) :
    readArguments draft (some flag) (value :: rest) = .error misuse := by
  simp only [readArguments, notOption, Bool.false_eq_true, if_false, refuses]

def Draft.ofPrecision (precision : Nat) : Draft :=
  { Draft.empty with precision := some precision }

theorem request_precision (precision : Nat) (rest : List String) :
    request ("-p" :: toString precision :: rest) =
      if precision < Nat.pow 2 64 then readArguments (.ofPrecision precision) none rest
      else .error (.invalidNumber (toString precision)) := by
  change readArguments .empty (some .precision) (toString precision :: rest) = _
  have places := places?_toString precision
  split
  · next fits =>
      rw [if_pos fits] at places
      apply readArguments_value (isOption_toString precision)
      rw [Draft.setValue, places]
      rfl
  · next large =>
      rw [if_neg large] at places
      apply readArguments_misuse (isOption_toString precision)
      rw [Draft.setValue, places]

theorem readArguments_file (precision : Nat) {path : String} (named : path ≠ "")
    (notOption : isOption path = false) :
    readArguments (.ofPrecision precision) none ["-f", path] =
      .ok (.evaluate ⟨.file path, precision, false⟩) := by
  change readArguments (.ofPrecision precision) (some .file) [path] = _
  have sets : (Draft.ofPrecision precision).setValue .file path =
      .ok { Draft.ofPrecision precision with file := some path } := by
    rw [Draft.setValue, if_neg named]
    rfl
  exact readArguments_value notOption sets []

/-! ### One line -/

theorem report_run_of_isLine (precision : Nat) {text : String} (isLine : IsLine text) :
    report ((Session.start precision).run false .unbounded (Text.bytes text)) =
      match answerText? precision (evaluate text) with
      | none => ⟨refusedCode, .empty, refusedMessage ++ "\n"⟩
      | some answer => ⟨0, (answer ++ "\n").toUTF8, ""⟩ := by
  have trimmed : Text.trim text = text := Text.trim_eq_self isLine.first isLine.last
  have stays := isLine.stays
  have notEmpty := isLine.notEmpty
  rw [← trimmed] at stays notEmpty
  have replied := (Session.start precision).reply_fst_eq stays notEmpty
  rw [trimmed] at replied
  have single := Session.lines_of_not_mem (Text.bytes_ne_nil isLine.notEmpty)
    (Text.not_mem_bytes isLine.free)
  rcases whole : (Session.start precision).reply text with ⟨reply, after⟩
  rw [whole] at replied
  change reply = (answerText? precision (evaluate text)).elim .refused .print at replied
  unfold Session.run
  simp only [Session.announce, Bool.false_eq_true, if_false, single, Session.converse,
    Session.turn, Text.fromUTF8?_bytes, whole]
  cases answered : answerText? precision (evaluate text) with
  | none =>
      rw [answered] at replied
      cases replied
      rfl
  | some answer =>
      rw [answered] at replied
      cases replied
      exact congrArg (Report.mk 0 · "") ByteArray.empty_append

/-- How the report of a text that is evaluated once goes with that of the same text as a line:
a fault is a problem for the one and an answer for the other. -/
structure Report.AgreesWith (once filed : Report) : Prop where
  value : once.code = 0 → filed.code = 0 ∧ filed.output = once.output
  fault : once.code = 1 → filed.code = 0 ∧ filed.output = once.problems.toUTF8
  refused : once.code = 101 ↔ filed.code = 101

theorem reportExpression_agreesWith (precision : Nat) (path : String) {text : String}
    (isLine : IsLine text) :
    (reportExpression precision text).AgreesWith
        (reportFile precision path (.content (Text.bytes text))) ∧
      (reportExpression precision text).code ∈ [0, 1, 101] := by
  rw [reportFile, report_run_of_isLine precision isLine, reportExpression]
  cases answerText? precision (evaluate text) with
  | none => exact ⟨⟨nofun, nofun, Iff.rfl⟩, by simp [refusedCode]⟩
  | some answer =>
      cases evaluate text with
      | ok value => exact ⟨⟨fun _ => ⟨rfl, rfl⟩, nofun, Iff.rfl⟩, by simp⟩
      | error fault => exact ⟨⟨nofun, fun _ => ⟨rfl, rfl⟩, nofun, nofun⟩, by simp⟩

/-! ### The program with its arguments -/

section

variable {precision : Nat} (input : List UInt8) (source : String → Source)

theorem perform_expression (fits : precision < Nat.pow 2 64) (text : String) :
    perform input source ["-p", toString precision, "--", text] =
      reportExpression precision text := by
  rw [perform, request_precision, if_pos fits]
  rfl

theorem perform_file (fits : precision < Nat.pow 2 64) {path : String} (named : path ≠ "")
    (notOption : isOption path = false) :
    perform input source ["-p", toString precision, "-f", path] =
      reportFile precision path (source path) := by
  rw [perform, request_precision, if_pos fits, readArguments_file precision named notOption]
  rfl

theorem perform_quiet (fits : precision < Nat.pow 2 64) :
    perform input source ["-p", toString precision, "-q"] =
      report ((Session.start precision).run false .unbounded input) := by
  rw [perform, request_precision, if_pos fits]
  rfl

theorem perform_of_large (large : ¬ precision < Nat.pow 2 64) (rest : List String) :
    perform input source ("-p" :: toString precision :: rest) =
      ⟨misuseCode, .empty, (Misuse.invalidNumber (toString precision)).message⟩ := by
  rw [perform, request_precision, if_neg large]

end

/-- Lines in a file are answered like the same lines on the standard input, and a text that
is a line of its own like that line in a file. -/
theorem perform_agrees (precision : Nat) (path : String) (named : path ≠ "")
    (notOption : isOption path = false) :
    (∀ (content input : List UInt8) (source elsewhere : String → Source),
      source path = .content content →
      perform input source ["-p", toString precision, "-f", path] =
        perform content elsewhere ["-p", toString precision, "-q"]) ∧
    (∀ (text : String) (input other : List UInt8) (source elsewhere : String → Source),
      IsLine text → source path = .content (Text.bytes text) →
      let once := perform input elsewhere ["-p", toString precision, "--", text]
      let filed := perform other source ["-p", toString precision, "-f", path]
      once.AgreesWith filed ∧ (precision < Nat.pow 2 64 → once.code ∈ [0, 1, 101])) := by
  by_cases fits : precision < Nat.pow 2 64
  · constructor
    · intro content input source elsewhere holds
      rw [perform_file input source fits named notOption, perform_quiet content elsewhere fits,
        holds]
      rfl
    · intro text input other source elsewhere isLine holds
      rw [perform_expression input elsewhere fits text,
        perform_file other source fits named notOption, holds]
      obtain ⟨agrees, codes⟩ := reportExpression_agreesWith precision path isLine
      exact ⟨agrees, fun _ => codes⟩
  · constructor
    · intro content input source elsewhere _
      rw [perform_of_large input source fits, perform_of_large content elsewhere fits]
    · intro text input other source elsewhere _ _
      rw [perform_of_large input elsewhere fits, perform_of_large other source fits]
      exact ⟨⟨nofun, nofun, Iff.rfl⟩, fun small => absurd small fits⟩

/-- A fault is a problem, with the exit code 1, and the answer to a line. -/
theorem perform_agrees_of_fault :
    ("sums" ≠ "" ∧ isOption "sums" = false ∧ IsLine "1 +") ∧
      (perform [] (fun _ => .content []) ["-p", toString 2, "--", "1 +"]).code = 1 ∧
      (perform [] (fun _ => .content (Text.bytes "1 +"))
          ["-p", toString 2, "-f", "sums"]).code = 0 ∧
      (perform [] (fun _ => .content (Text.bytes "1 +"))
          ["-p", toString 2, "-f", "sums"]).output =
        "Error: syntax error at offset 3: unexpected end of input\n".toUTF8 := by
  have notOption : isOption "sums" = false := by decide
  have isLine : IsLine "1 +" := by
    refine ⟨by decide, by decide, ?_, ?_, by decide⟩
    · rintro _ ⟨⟩
      decide
    · rintro _ ⟨⟩
      decide
  have code : (perform [] (fun _ => .content []) ["-p", toString 2, "--", "1 +"]).code = 1 := by
    decide +kernel
  have problems : (perform [] (fun _ => .content []) ["-p", toString 2, "--", "1 +"]).problems =
      "Error: syntax error at offset 3: unexpected end of input\n" := by
    decide +kernel
  obtain ⟨agrees, _⟩ := (perform_agrees 2 "sums" (by decide) notOption).2 "1 +" [] []
    (fun _ => .content (Text.bytes "1 +")) (fun _ => .content []) isLine rfl
  obtain ⟨finished, output⟩ := agrees.fault code
  rw [problems] at output
  exact ⟨⟨by decide, notOption, isLine⟩, code, finished, output⟩

end CommandLine
end Abacus
