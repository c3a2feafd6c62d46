import Mottainai.JavaScriptValues
import Mottainai.ShellWords

/-!
# Remote commands over SSH

OpenSSH passes one text to the shell of the remote host, which splits it into words again. The
arguments of a command are checked, quoted and put together with blanks. The shell reads them back
as they were.
-/

namespace Mottainai.RemoteCommands

open JavaScriptValues ShellWords

section Building

/-- `SshTransportError`. -/
structure SshTransportError where
  code : String
  message : String
  deriving DecidableEq

def maxCommandArguments : ℕ := 128

def maxArgumentLength : ℕ := 4096

def validArgument (argument : String) : Bool :=
  utf16Length argument ≤ maxArgumentLength && !argument.toList.contains '\x00'

def validateCommand (command : List String) : Except SshTransportError Unit := do
  require (command.length ≠ 0 ∧ command.length ≤ maxCommandArguments)
    ⟨"unsupported-transport-state", "SSH command argument count is outside the supported bound"⟩
  require (command.all validArgument)
    ⟨"unsupported-transport-state", "SSH command contains an invalid argument"⟩

/-- `argument.replaceAll("'", ...)`. -/
def replaceQuotes (argument : String) : String :=
  String.ofList (argument.toList.flatMap fun c =>
    if c = '\'' then ['\'', '"', '\'', '"', '\''] else [c])

def quoteRemoteArgument (argument : String) : String := "'" ++ replaceQuotes argument ++ "'"

/-- The last argument of `ssh`, for a command that is accepted. -/
def remoteCommand (command : List String) : Except SshTransportError String := do
  validateCommand command
  return " ".intercalate (command.map quoteRemoteArgument)

end Building

section RoundTrip

theorem toList_quoteRemoteArgument (argument : String) :
    (quoteRemoteArgument argument).toList = quoted argument.toList := by
  have hreplaced : (replaceQuotes argument).toList = argument.toList.flatMap quotedChar :=
    String.toList_ofList
  simp [quoteRemoteArgument, quoted, hreplaced]

theorem toList_intercalate (separator : String) (parts : List String) :
    (separator.intercalate parts).toList =
      separator.toList.intercalate (parts.map String.toList) := by
  simp

/-- The words that the remote shell reads are the arguments. -/
theorem words_remoteCommand {command : List String} {line : String}
    (h : remoteCommand command = .ok line) : words line = some command := by
  obtain ⟨-, -, hline⟩ := bind_eq_ok.mp h
  cases hline
  have hquoted : (command.map quoteRemoteArgument).map String.toList =
      (command.map String.toList).map quoted := by
    simp [toList_quoteRemoteArgument]
  have hread := wordsFrom_intercalate_quoted (command.map String.toList)
  rw [words, toList_intercalate, hquoted]
  have hblank : " ".toList = [' '] := rfl
  rw [hblank, hread]
  simp

/-- A command with quotes, an expansion, a line break and an empty argument. -/
theorem words_remoteCommand_quotes :
    words "'it'\"'\"'s' '$HOME\n' ''" = some ["it's", "$HOME\n", ""] :=
  @words_remoteCommand ["it's", "$HOME\n", ""] _ rfl

end RoundTrip

end Mottainai.RemoteCommands
