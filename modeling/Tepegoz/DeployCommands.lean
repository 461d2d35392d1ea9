import Tepegoz.DeployAgent
import Tepegoz.Lib.Shell
import Tepegoz.Lib.Text

namespace Tepegoz

open Shell

def shellQuote (s : String) : String :=
  (s.toList.foldl (fun out c => if c = '\'' then out ++ "'\\''" else out.push c) "'").push '\''

def presenceCmd (remotePath : String) : String :=
  "[ -f " ++ shellQuote remotePath ++ " ] && echo present || echo absent"

def hashCommand (os path : String) : String :=
  let quoted := shellQuote path
  if os = "darwin" then "shasum -a 256 -b " ++ quoted else "sha256sum -b " ++ quoted

def statCommand (os path : String) : String :=
  let quoted := shellQuote path
  if os = "darwin" then "stat -f '%z %m' " ++ quoted else "stat -c '%s %Y' " ++ quoted

def mkdirCmd (remoteDir : String) : String := "mkdir -p " ++ shellQuote remoteDir

def uploadCmd (tmpPath : String) : String := "cat > " ++ shellQuote tmpPath

def rmCmd (tmpPath : String) : String := "rm -f " ++ shellQuote tmpPath

def finalizeCmd (tmpPath finalPath : String) : String :=
  "mv " ++ shellQuote tmpPath ++ " " ++ shellQuote finalPath ++ " && chmod +x " ++ shellQuote finalPath

/-- What `spawn_agent_channel` gives to `exec`. -/
def agentCmd (remotePath : String) : String := remotePath

/-- The command lines about the directory, the path and the temporary path. -/
inductive RemoteCommand
  | presence
  | hash
  | stat
  | mkdir
  | upload
  | rm
  | finalize
  | execAgent
  deriving DecidableEq

namespace RemoteCommand

variable (d : Deployment) (os : String)

def line : RemoteCommand → String
  | .presence => presenceCmd d.remotePath
  | .hash => hashCommand os d.remotePath
  | .stat => statCommand os d.remotePath
  | .mkdir => mkdirCmd d.remoteDir
  | .upload => uploadCmd d.tmpPath
  | .rm => rmCmd d.tmpPath
  | .finalize => finalizeCmd d.tmpPath d.remotePath
  | .execAgent => agentCmd d.remotePath

def commandOf (words : List String) : Command := ⟨[], words.map String.toList, []⟩

/-- What each line is meant to run. -/
def intended : RemoteCommand → Script
  | .presence =>
    ⟨[(commandOf ["[", "-f", d.remotePath, "]"], .andIf), (commandOf ["echo", "present"], .orIf)],
      some (commandOf ["echo", "absent"])⟩
  | .hash =>
    ⟨[], some (commandOf (if os = "darwin" then ["shasum", "-a", "256", "-b", d.remotePath]
      else ["sha256sum", "-b", d.remotePath]))⟩
  | .stat =>
    ⟨[], some (commandOf (if os = "darwin" then ["stat", "-f", "%z %m", d.remotePath]
      else ["stat", "-c", "%s %Y", d.remotePath]))⟩
  | .mkdir => ⟨[], some (commandOf ["mkdir", "-p", d.remoteDir])⟩
  | .upload => ⟨[], some { commandOf ["cat"] with redirects := [⟨[], ['>'], d.tmpPath.toList⟩] }⟩
  | .rm => ⟨[], some (commandOf ["rm", "-f", d.tmpPath])⟩
  | .finalize =>
    ⟨[(commandOf ["mv", d.tmpPath, d.remotePath], .andIf)],
      some (commandOf ["chmod", "+x", d.remotePath])⟩
  | .execAgent => ⟨[], some (commandOf [d.remotePath])⟩

def bare (text : String) : Lexeme := .bare text.toList

def quotation (text : String) : Lexeme := .quotation text.toList

/-- How each line is written. -/
def written : RemoteCommand → Line
  | .presence =>
    ⟨[(⟨[bare "[", bare "-f", quotation d.remotePath, bare "]"], []⟩, .andIf),
      (⟨[bare "echo", bare "present"], []⟩, .orIf)], ⟨[bare "echo", bare "absent"], []⟩⟩
  | .hash =>
    ⟨[], ⟨if os = "darwin" then
        [bare "shasum", bare "-a", bare "256", bare "-b", quotation d.remotePath]
      else [bare "sha256sum", bare "-b", quotation d.remotePath], []⟩⟩
  | .stat =>
    ⟨[], ⟨if os = "darwin" then [bare "stat", bare "-f", quotation "%z %m", quotation d.remotePath]
      else [bare "stat", bare "-c", quotation "%s %Y", quotation d.remotePath], []⟩⟩
  | .mkdir => ⟨[], ⟨[bare "mkdir", bare "-p", quotation d.remoteDir], []⟩⟩
  | .upload => ⟨[], ⟨[bare "cat"], [(['>'], quotation d.tmpPath)]⟩⟩
  | .rm => ⟨[], ⟨[bare "rm", bare "-f", quotation d.tmpPath], []⟩⟩
  | .finalize =>
    ⟨[(⟨[bare "mv", quotation d.tmpPath, quotation d.remotePath], []⟩, .andIf)],
      ⟨[bare "chmod", bare "+x", quotation d.remotePath], []⟩⟩
  | .execAgent => ⟨[], ⟨[bare d.remotePath], []⟩⟩

end RemoteCommand

theorem toList_shellQuote (s : String) : (shellQuote s).toList = quote s.toList := by
  have hfold : ∀ (text : List Char) (out : String),
      (text.foldl (fun out c => if c = '\'' then out ++ "'\\''" else out.push c) out).toList =
        out.toList ++ text.flatMap quoteChar := by
    intro text
    induction text with
    | nil => simp
    | cons c rest ih =>
      intro out
      rw [List.foldl_cons, ih, List.flatMap_cons]
      by_cases hc : c = '\'' <;> simp [quoteChar, hc]
  simp [shellQuote, hfold, quote]

namespace RemoteCommand

variable {d : Deployment} {os : String}

theorem written_text (command : RemoteCommand) :
    (command.written d os).text = (command.line d os).toList := by
  cases command with
  | hash | stat =>
    by_cases hos : os = "darwin" <;>
      simp [written, line, hashCommand, statCommand, hos, Line.text, Line.lexemes, Clause.lexemes,
        Lexeme.spaced, Lexeme.written, bare, quotation, toList_shellQuote, quote, quoteChar]
  | presence | mkdir | upload | rm | finalize | execAgent =>
    simp [written, line, presenceCmd, mkdirCmd, uploadCmd, rmCmd, finalizeCmd, agentCmd, Line.text,
      Line.lexemes, Clause.lexemes, Lexeme.spaced, Lexeme.written, Connector.text, bare, quotation,
      toList_shellQuote]

theorem written_script (command : RemoteCommand) :
    (command.written d os).script = command.intended d os := by
  cases command with
  | hash | stat =>
    by_cases hos : os = "darwin" <;> simp only [written, intended, hos, if_true, if_false] <;> rfl
  | presence | mkdir | upload | rm | finalize | execAgent => rfl

theorem written_isLine {command : RemoteCommand} (h : command ≠ .execAgent) :
    (command.written d os).isLine = true := by
  cases command with
  | execAgent => exact absurd rfl h
  | hash | stat =>
    by_cases hos : os = "darwin" <;> simp only [written, hos, if_true, if_false] <;> rfl
  | presence | mkdir | upload | rm | finalize => rfl

end RemoteCommand

/-- A digit has no meaning of its own to the shell. -/
theorem isOrdinary_of_isDigit {c : Char} (h : c.isDigit = true) : isOrdinary c = true := by
  have hrange : 48 ≤ c.toNat ∧ c.toNat ≤ 57 := Char.isDigit_iff_toNat.mp h
  have hdigits : ∀ n < 58, 48 ≤ n → isOrdinary (Char.ofNat n) = true := by decide
  rw [← Char.ofNat_toNat c]
  exact hdigits c.toNat (Nat.lt_succ_of_le hrange.2) hrange.1

/-- The path of the agent is one word exactly when nothing in the home directory is special. -/
theorem remotePath_isWord (d : Deployment) : (Lexeme.bare d.remotePath.toList).isWord =
    standsForItself d.home.toList := by
  have hpath : d.remotePath.toList = d.home.toList ++
      '/' :: (".cache/tepegoz/agent-v".toList ++ Nat.toDigits 10 d.protocolVersion) := by
    simp [Deployment.remotePath, Deployment.remoteDir]
  generalize hback : ".cache/tepegoz/agent-v".toList ++ Nat.toDigits 10 d.protocolVersion = back at hpath
  have hordinary : ('/' :: back).all isOrdinary = true := by
    have hversion : (Nat.toDigits 10 d.protocolVersion).all isOrdinary = true :=
      List.all_eq_true.mpr fun c hc => isOrdinary_of_isDigit
        (Nat.isDigit_of_mem_toDigits (b := 10) (by decide) (by decide) hc)
    rw [← hback, ← List.cons_append, List.all_append, hversion]
    decide
  have hequals : '=' ∉ back := fun hmem =>
    absurd (List.all_eq_true.mp hordinary '=' (List.mem_cons_of_mem _ hmem)) (by decide)
  have hreserved : ∀ word ∈ reservedWords, '/' ∉ word := by decide
  have hnot : d.remotePath.toList ∉ reservedWords := fun hmem =>
    hreserved _ hmem (by rw [hpath]; simp)
  have hne : d.remotePath.toList ≠ [] := by rw [hpath]; simp
  rw [← standsForItself_slash (standsForItself_of_all hordinary) hequals, ← hpath]
  simp [Lexeme.isWord, hne, hnot]

/-- A quoted text is one word equal to itself, and all lines with a quoted path run what is intended;
the line that starts the agent has the path unquoted, and does so exactly for a home directory in which
nothing is special to the shell. -/
theorem command_lines_read (d : Deployment) (os : String) :
    (∀ s, read (shellQuote s).toList = some (.words [s.toList])) ∧
      (∀ command : RemoteCommand, command ≠ .execAgent →
        read (command.line d os).toList = some (command.intended d os)) ∧
      ((∀ command : RemoteCommand, read (command.line d os).toList = some (command.intended d os)) ↔
        standsForItself d.home.toList = true) := by
  have hquoted : ∀ command : RemoteCommand, command ≠ .execAgent →
      read (command.line d os).toList = some (command.intended d os) := by
    intro command hcommand
    rw [← RemoteCommand.written_text, ← RemoteCommand.written_script]
    exact Line.read_text (RemoteCommand.written_isLine hcommand)
  have hexec : read (RemoteCommand.execAgent.line d os).toList =
      some (RemoteCommand.execAgent.intended d os) ↔ standsForItself d.home.toList = true := by
    rw [← remotePath_isWord]
    exact read_eq_word_iff d.remotePath.toList
  refine ⟨fun s => ?_, hquoted, fun h => hexec.mp (h .execAgent), fun h command => ?_⟩
  · have hline : (⟨[], ⟨[.quotation s.toList], []⟩⟩ : Line).isLine = true := rfl
    rw [toList_shellQuote]
    exact Line.read_text hline
  · by_cases hcommand : command = .execAgent
    · rw [hcommand]
      exact hexec.mpr h
    · exact hquoted command hcommand

/-- With a blank in the home directory the shell runs a program of another name. -/
theorem spaced_home_split : ¬ ∀ (d : Deployment) (os : String) (command : RemoteCommand),
    (∀ c ∈ d.home.toList, c ≠ '\n') → Text.trim d.home.toList = d.home.toList →
      read (command.line d os).toList = some (command.intended d os) := by
  intro h
  have hexec := h ⟨fun _ => "", [], "/home/a b", 12, 40⟩ "linux" .execAgent (by simp) (by decide)
  revert hexec
  decide

end Tepegoz
