import Uniterm.Model.Server.Delivery
import Uniterm.Posix.Escapes
import Uniterm.Posix.Words

/-! # Launches survive the shell

A joined invocation splits into its arguments again, and the line of a launch expands to its command.
-/

namespace Uniterm.Model.Server

open Posix

section Quoting

/-- Behind an open quote a quoted text is taken literally, up to the quote that closes it. -/
theorem split_quoted (s : Text) (taken : Word) (rest : Text) :
    split .single (some taken)
        (s.flatMap (fun ch => if ch = '\'' then ['\'', '\\', '\'', '\''] else [ch]) ++ '\'' :: rest) =
      split .none (some (taken ++ literal s)) rest := by
  induction s generalizing taken with
  | nil =>
    rw [List.flatMap_nil, List.nil_append, split_closing, literal, List.map_nil, List.append_nil]
  | cons ch s ih =>
    have whole : taken ++ literal [ch] ++ literal s = taken ++ literal (ch :: s) := by
      rw [List.append_assoc, literal, literal, literal, ← List.map_append, List.singleton_append]
    rw [List.flatMap_cons, List.append_assoc, ← whole]
    split
    next quote =>
      obtain rfl := quote
      exact (split_quote taken _).trans (ih _)
    next other => exact (split_kept other taken _).trans (ih _)

private theorem split_shellQuote (s rest : Text) :
    split .none none (shellQuote s ++ rest) = split .none (some (literal s)) rest := by
  have opened : shellQuote s ++ rest = '\'' ::
      (s.flatMap (fun ch => if ch = '\'' then ['\'', '\\', '\'', '\''] else [ch]) ++ '\'' :: rest) := by
    simp [shellQuote]
  rw [opened, split_open]
  exact split_quoted s [] rest

/-- Quoted arguments with a blank between them are the words of their line. -/
theorem words_quoted {argv : List Text} (nonempty : argv ≠ []) :
    words ([' '].intercalate (argv.map shellQuote)) = some (argv.map literal) := by
  induction argv with
  | nil => exact absurd rfl nonempty
  | cons argument rest ih =>
    cases rest with
    | nil =>
      have single : [' '].intercalate ([argument].map shellQuote) = shellQuote argument ++ [] := by
        simp [List.intercalate]
      rw [single]
      exact split_shellQuote argument []
    | cons next rest =>
      have line : [' '].intercalate ((argument :: next :: rest).map shellQuote) =
          shellQuote argument ++ ' ' :: [' '].intercalate ((next :: rest).map shellQuote) := by
        simp [List.intercalate]
      have later := ih (List.cons_ne_nil next rest)
      unfold words at later ⊢
      rw [line, split_shellQuote, split_blank, later]
      rfl

end Quoting

section Delivering

private theorem forall_byte {P : UInt8 → Prop} (all : ∀ n < 256, P (UInt8.ofNat n)) (byte : UInt8) : P byte := by
  have here := all byte.toNat byte.toNat_lt
  rwa [UInt8.ofNat_toNat] at here

/-- The digits that a byte is written with, and that no escape has a control byte. -/
theorem escapes_of_byte (byte : UInt8) :
    ((isOctal ((0x30 : UInt8) + (byte >>> 6 : UInt8)) ∧ isOctal ((0x30 : UInt8) + ((byte >>> 3 : UInt8) &&& 7)) ∧
        isOctal ((0x30 : UInt8) + (byte &&& 7))) ∧
      (octalValue ((0x30 : UInt8) + (byte >>> 6 : UInt8)) * (8 : UInt8) +
          octalValue ((0x30 : UInt8) + ((byte >>> 3 : UInt8) &&& 7))) * 8 +
        octalValue ((0x30 : UInt8) + (byte &&& 7)) = byte) ∧
      (launchByte byte).all (fun other => !isAsciiControl other) = true := by
  revert byte
  exact forall_byte (by decide +kernel)

/-- The octal digits that a control byte is written with. -/
theorem octals_of_byte (byte : UInt8) : ∃ high mid low,
    [(0x30 : UInt8) + (byte >>> 6 : UInt8), (0x30 : UInt8) + ((byte >>> 3 : UInt8) &&& 7),
        (0x30 : UInt8) + (byte &&& 7)] = [high, mid, low] ∧
      (isOctal high ∧ isOctal mid ∧ isOctal low) ∧
      (octalValue high * 8 + octalValue mid) * 8 + octalValue low = byte :=
  ⟨_, _, _, rfl, (escapes_of_byte byte).1⟩

/-- An escaped byte expands to itself. -/
theorem expand_launchByte (byte : UInt8) (rest : Bytes) :
    expand .plain (launchByte byte ++ rest) = byte :: expand .plain rest := by
  unfold launchByte
  split
  next backslash =>
    obtain rfl := backslash
    exact expand_doubled rest
  next other =>
  split
  · obtain ⟨high, mid, low, digits, octals, value⟩ := octals_of_byte byte
    rw [digits]
    exact (expand_octal octals rest).trans (congrArg (· :: _) value)
  · exact expand_plain other rest

private theorem expand_launch (bytes : Bytes) : printfB (bytes.flatMap launchByte) = bytes := by
  unfold printfB
  induction bytes with
  | nil => rfl
  | cons byte rest ih => rw [List.flatMap_cons, expand_launchByte, ih]

/-- No byte of an escaped launch controls a terminal. -/
theorem launchByte_printable (byte : UInt8) : ∀ other ∈ launchByte byte, isAsciiControl other = false := by
  intro other member
  have here := List.all_eq_true.mp (escapes_of_byte byte).2 other member
  rwa [Bool.not_eq_true'] at here

/-- Splitting a joined invocation gives its arguments, with nothing left to expand. The line of a launch has one
newline, at its end, and no other control byte; reading it and expanding its escapes gives the command. -/
theorem launch_survives {argv : List Text} (nonempty : argv ≠ []) (command : Text) :
    (∃ invocation, shellJoin argv = some invocation ∧ words invocation = some (argv.map literal)) ∧
      ∃ line, launchDelivery command = line ++ [0x0a] ∧ (∀ byte ∈ line, isAsciiControl byte = false) ∧
        printfB (readLine (launchDelivery command)) = command.bytes := by
  refine ⟨⟨_, if_neg ?_, words_quoted nonempty⟩, ?_⟩
  · rw [List.isEmpty_iff]
    exact nonempty
  · have printable : ∀ byte ∈ command.bytes.flatMap launchByte, isAsciiControl byte = false := by
      intro byte member
      obtain ⟨source, -, escaped⟩ := List.mem_flatMap.mp member
      exact launchByte_printable source byte escaped
    refine ⟨_, rfl, printable, ?_⟩
    have single : ∀ byte ∈ command.bytes.flatMap launchByte, byte ≠ 0x0a := by
      rintro byte member rfl
      exact absurd (printable _ member) (by decide)
    unfold launchDelivery
    rw [readLine_append single, expand_launch]

/-- An argument with a quote, and a command with an escape that it must not become. -/
theorem launch_survives_quoted :
    (∃ invocation, shellJoin ["agent".toList, "it's $HOME".toList] = some invocation ∧
        words invocation = some (["agent".toList, "it's $HOME".toList].map literal)) ∧
      ∃ line, launchDelivery "\\033\n界".toList = line ++ [0x0a] ∧ (∀ byte ∈ line, isAsciiControl byte = false) ∧
        printfB (readLine (launchDelivery "\\033\n界".toList)) = Text.bytes "\\033\n界".toList :=
  launch_survives (List.cons_ne_nil _ _) _

end Delivering

end Uniterm.Model.Server
