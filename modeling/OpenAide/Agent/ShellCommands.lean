import OpenAide.Library.Fallible
import OpenAide.Protocol.Json
import OpenAide.Storage.ToolArtifacts

/-!
# Shell commands behind a presentation

`agent/command_presentation/shell.rs`: an execute command is shown as what it does only if its
source is a plain list of commands and pipelines.  `splitPlainCommands` scans the source for
anything else; a source that is a call of `sh -c` is replaced by its body first.

The shell reads more than the scan does.  `liveSyntax` is what it finds outside quotes, escapes and
comments, by the POSIX rules of token recognition, with continued lines joined.  Of a scanned text
it can hold, beside the separators of the returned stages, only a tilde, the newline that ends a
comment, or a doubled operator that a continued line hides from the scan (`live_of_scan`); and of a
source whose body was scanned in its place it can hold anything, since a character that is live in
the source may stand quoted in the body (`shows_syntax_iff`).
-/

namespace OpenAide

open Library ToolArtifacts

namespace ShellCommands

abbrev singleQuote : Char := '\x27'
abbrev doubleQuote : Char := '\x22'
abbrev backslash : Char := '\x5c'
abbrev backquote : Char := '\x60'

/-! ## Paths of the standard library -/

/-- The root or current directory a path starts with, and the rest. -/
def pathStart : List Char → List Char × List Char
  | '/' :: rest => (['/'], rest)
  | ['.'] => (['.'], [])
  | '.' :: '/' :: rest => (['.'], '/' :: rest)
  | path => ([], path)

/-- The components from the back, from the last one that is not skipped. -/
def backComponents (pieces : List (List Char)) : List (List Char) :=
  pieces.dropWhile fun piece => piece = [] ∨ piece = ['.']

/-- `Path::file_name`. -/
def fileName (path : List Char) : Option (List Char) :=
  match backComponents ((pathStart path).2.splitOn '/').reverse with
  | last :: _ => if last = ['.', '.'] then none else some last
  | [] => none

/-- `Path::parent`. -/
def parent (path : List Char) : Option (List Char) :=
  match backComponents ((pathStart path).2.splitOn '/').reverse with
  | _ :: before => some ((pathStart path).1 ++ ['/'].intercalate (backComponents before).reverse)
  | [] => if (pathStart path).1 = ['.'] then some [] else none

/-! ## The parser -/

/-- `ParsedCommand` (`shell.rs:5`). -/
structure ParsedCommand where
  stages : List (List String)
  deriving DecidableEq

/-- `CommandInput` (`shell.rs:37`). -/
inductive CommandInput where
  | source (source : String)
  | argv (words : List String)

/-- `command_input` (`shell.rs:42`). -/
def commandInput (rawInput : Json) : Option CommandInput := do
  let isCommand : Json → Bool
    | .string _ | .array _ => true
    | _ => false
  let command := (rawInput.get? "command").filter isCommand
  let cmd := (rawInput.get? "cmd").filter isCommand
  let value ← match command, cmd with
    | some command, some cmd => if command.beq cmd then some command else none
    | some command, none => some command
    | none, some cmd => some cmd
    | none, none => none
  match value with
  | .string source => some (.source source)
  | .array values => (values.mapM Json.asStr).map .argv
  | _ => none

/-- `shell_body` (`shell.rs:83`). -/
def shellBody : List String → Option String
  | [shell, flag, body] =>
    let path := shell.toList
    if (parent path).all (·.isEmpty) ∨
        parent path = some "/bin".toList ∨ parent path = some "/usr/bin".toList then
      match fileName path with
      | some name =>
        if (name = "sh".toList ∨ name = "bash".toList ∨ name = "zsh".toList) ∧
          (flag = "-c" ∨ flag = "-lc") then some body else none
      | none => none
    else none
  | _ => none

/-- The scan (`shell.rs:112-119`); `source[stage_start..index]` stands for the indices. -/
structure Scan where
  quote : Option Char := none
  escaped : Bool := false
  stage : List Char := []
  stages : List String := []
  commands : List (List String) := []

namespace Scan

def push (s : Scan) (byte : Char) : Scan := { s with stage := s.stage ++ [byte] }

/-- A stage ends here, and must not be blank. -/
def endStage (s : Scan) : Option Scan :=
  if (trimBoth isWhitespace s.stage).isEmpty then none
  else some { s with
    stage := []
    stages := s.stages ++ [.ofList (trimBoth isWhitespace s.stage)] }

/-- A command ends with its last stage. -/
def endCommand (s : Scan) : Option Scan :=
  s.endStage.map fun s => { s with stages := [], commands := s.commands ++ [s.stages] }

/-- What is never plain outside quotes (`shell.rs:176-193`). -/
def unsupported (byte : Char) : Bool :=
  byte ∈ ['&', '<', '>', backquote, '$', '(', ')', '\x7b', '\x7d', '*', '?', '[', ']', '!', '\n']

/-- The loop of `split_plain_commands` (`shell.rs:120-196`); what it looks for is ASCII. -/
def run (s : Scan) : List Char → Option (List (List String))
  | [] => if s.quote.isSome ∨ s.escaped then none else s.endCommand.map (·.commands)
  | byte :: rest =>
    if s.escaped then run { s.push byte with escaped := false } rest
    else if byte = backslash ∧ s.quote ≠ some singleQuote then
      run { s.push byte with escaped := true } rest
    else match s.quote with
      | some active =>
        if byte = active then run { s.push byte with quote := none } rest
        else if active = doubleQuote ∧ (byte = '$' ∨ byte = backquote) then none
        else run (s.push byte) rest
      | none =>
        if byte = singleQuote ∨ byte = doubleQuote then
          run { s.push byte with quote := some byte } rest
        else if byte = '&' then
          match rest with
          | '&' :: rest =>
            match s.endCommand with
            | some s => run s rest
            | none => none
          -- alone it is unsupported
          | _ => none
        else if byte = ';' then
          match s.endCommand with
          | some s => run s rest
          | none => none
        else if byte = '|' then
          if rest.head? = some '|' then none
          else match s.endStage with
            | some s => run s rest
            | none => none
        else if unsupported byte then none
        else run (s.push byte) rest

end Scan

/-- `split_plain_commands` (`shell.rs:112`). -/
def splitPlainCommands (source : String) : Option (List (List String)) :=
  Scan.run {} source.toList

section Parse

-- `shell_words::split`
variable (split : String → Option (List String))

/-- `parse_source` (`shell.rs:68`). -/
def parseSource (source : String) : Option (List ParsedCommand) := do
  (← splitPlainCommands source).mapM fun stages => (stages.mapM split).map ParsedCommand.mk

/-- `parse_commands` (`shell.rs:9`). -/
def parseCommands (rawInput : Json) : Option (List ParsedCommand) := do
  match ← commandInput rawInput with
  | .source source =>
    let words ← split source
    parseSource split ((shellBody words).getD source)
  | .argv words =>
    match shellBody words with
    | some source => parseSource split source
    | none => some [⟨[words]⟩]

end Parse

/-! ## How the shell reads a text -/

/-- Where the shell is in a text: between words or in one, before the second character of an
operator, in quotes, after a backslash, or in a comment. -/
inductive Reading where
  | blank
  | word
  | operator
  | single
  | double
  | escaped (inWord : Bool)
  | doubleEscaped
  | comment
  deriving DecidableEq

inductive Separator where
  | sequence | conjunction | pipe
  deriving DecidableEq

/-- Syntax that takes effect: a separator of stages, or another operator or expansion. -/
inductive Live where
  | separator (separator : Separator)
  | other (c : Char)
  deriving DecidableEq

/-- The characters of operators other than separators, and of expansions. -/
def isSpecial (c : Char) : Bool :=
  c ∈ ['<', '>', backquote, '$', '(', ')', '\x7b', '\x7d', '*', '?', '[', ']', '!', '\n', '~']

/-- The characters that end a word. -/
def isMeta (c : Char) : Bool := c ∈ [' ', '\t', '\n', '<', '>', '(', ')']

/-- The next character the shell sees: a backslash and the newline after it are removed first. -/
def next? : List Char → Option Char
  | '\x5c' :: '\n' :: rest => next? rest
  | text => text.head?

/-- What each character of a text takes effect as: the operators, at their first character, and the
expansions outside quotes, escapes and comments, and the expansions in double quotes. -/
def marks (reading : Reading) : List Char → List (Option Live)
  | [] => []
  | c :: rest =>
    match reading with
    | .operator =>
      -- a line may be continued inside an operator
      none :: marks (if c = backslash ∨ c = '\n' then .operator else .blank) rest
    | .single => none :: marks (if c = singleQuote then .word else .single) rest
    | .double =>
      if c = doubleQuote then none :: marks .word rest
      else if c = backslash then none :: marks .doubleEscaped rest
      else if c = '$' ∨ c = backquote then some (.other c) :: marks .double rest
      else none :: marks .double rest
    | .doubleEscaped => none :: marks .double rest
    | .escaped inWord => none :: marks (if c = '\n' ∧ ¬inWord then .blank else .word) rest
    | .comment =>
      if c = '\n' then some (.other c) :: marks .blank rest else none :: marks .comment rest
    | .blank | .word =>
      if c = singleQuote then none :: marks .single rest
      else if c = doubleQuote then none :: marks .double rest
      else if c = backslash then none :: marks (.escaped (reading = .word)) rest
      else if c = '#' ∧ reading = .blank then none :: marks .comment rest
      else if c = '&' then
        if next? rest = some '&' then some (.separator .conjunction) :: marks .operator rest
        else some (.other c) :: marks .blank rest
      else if c = ';' then
        if next? rest = some ';' then some (.other c) :: marks .operator rest
        else some (.separator .sequence) :: marks .blank rest
      else if c = '|' then
        if next? rest = some '|' then some (.other c) :: marks .operator rest
        else some (.separator .pipe) :: marks .blank rest
      else (if isSpecial c then some (.other c) else none) ::
        marks (if isMeta c then .blank else .word) rest

/-- What takes effect in a text. -/
def liveSyntax (reading : Reading) (text : List Char) : List Live :=
  (marks reading text).reduceOption

/-! ## Counting stages -/

/-- How many stages the commands between separators have, the first of them with `done` stages
already. -/
def stageCounts (done : Nat) : List Separator → List Nat
  | [] => [done + 1]
  | .pipe :: rest => stageCounts (done + 1) rest
  | _ :: rest => (done + 1) :: stageCounts 0 rest

variable {s s' : Scan}

theorem Scan.endStage_eq (h : s.endStage = some s') :
    s'.quote = s.quote ∧ s'.escaped = s.escaped ∧ s'.commands = s.commands ∧
      s'.stages.length = s.stages.length + 1 := by
  unfold endStage at h
  split at h
  · cases h
  · cases h
    simp

theorem Scan.endCommand_eq (h : s.endCommand = some s') :
    s'.quote = s.quote ∧ s'.escaped = s.escaped ∧ s'.stages = [] ∧
      s'.commands.map List.length = s.commands.map List.length ++ [s.stages.length + 1] := by
  obtain ⟨ended, hended, rfl⟩ := Option.map_eq_some_iff.mp h
  obtain ⟨hquote, hescaped, hcommands, hstages⟩ := endStage_eq hended
  exact ⟨hquote, hescaped, rfl, by simp [hcommands, hstages]⟩

/-- The commands a scan returns, counted. -/
def Scan.Returns (s : Scan) (result : List (List String)) (separators : List Separator) : Prop :=
  result.map List.length = s.commands.map List.length ++ stageCounts s.stages.length separators

variable {result : List (List String)}

theorem Scan.Returns.of_pipe {separators : List Separator} (hend : s.endStage = some s')
    (h : s'.Returns result separators) : s.Returns result (.pipe :: separators) := by
  obtain ⟨-, -, hcommands, hstages⟩ := endStage_eq hend
  unfold Returns at h ⊢
  rw [h, hcommands, hstages]
  rfl

theorem Scan.Returns.of_endCommand {separator : Separator} {separators : List Separator}
    (hend : s.endCommand = some s') (hpipe : separator ≠ .pipe) (h : s'.Returns result separators) :
    s.Returns result (separator :: separators) := by
  obtain ⟨-, -, hstages, hcommands⟩ := endCommand_eq hend
  have hcounts : stageCounts s.stages.length (separator :: separators) =
      (s.stages.length + 1) :: stageCounts 0 separators := by
    cases separator with
    | pipe => exact absurd rfl hpipe
    | sequence => rfl
    | conjunction => rfl
  unfold Returns at h ⊢
  rw [h, hcommands, hstages, hcounts, List.append_assoc]
  rfl

theorem Scan.returns_end (h : s.endCommand.map (·.commands) = some result) :
    s.Returns result [] := by
  obtain ⟨ended, hended, rfl⟩ := Option.map_eq_some_iff.mp h
  exact (endCommand_eq hended).2.2.2

variable {text : List Char}

theorem Scan.exists_returns (h : s.run text = some result) :
    ∃ separators, s.Returns result separators := by
  fun_induction Scan.run s text with
  | case2 s _ => exact ⟨[], returns_end h⟩
  | case9 s _ _ rest s' hend _ _ ih =>
    obtain ⟨separators, hreturns⟩ := ih h
    exact ⟨.conjunction :: separators, hreturns.of_endCommand hend (by decide)⟩
  | case12 s rest _ _ s' hend _ _ _ ih =>
    obtain ⟨separators, hreturns⟩ := ih h
    exact ⟨.sequence :: separators, hreturns.of_endCommand hend (by decide)⟩
  | case15 s rest _ _ _ s' hend _ _ _ _ ih =>
    obtain ⟨separators, hreturns⟩ := ih h
    exact ⟨.pipe :: separators, hreturns.of_pipe hend⟩
  | case3 _ _ _ _ ih => exact ih h
  | case4 _ _ _ _ _ ih => exact ih h
  | case5 _ _ _ _ _ _ ih => exact ih h
  | case7 _ _ _ _ _ _ _ _ _ ih => exact ih h
  | case8 _ _ _ _ _ _ _ ih => exact ih h
  | case18 _ _ _ _ _ _ _ _ _ _ _ ih => exact ih h
  | _ => cases h

/-! ## What a scanned text can hold -/

/-- The quotes the shell is in. -/
def Reading.quote : Reading → Option Char
  | single => some singleQuote
  | double | doubleEscaped => some doubleQuote
  | _ => none

def Reading.isEscaped : Reading → Bool
  | escaped _ | doubleEscaped => true
  | _ => false

/-- The scan is where the shell is.  It has no notion of a comment. -/
structure Follows (s : Scan) (reading : Reading) : Prop where
  quote : s.quote = reading.quote
  escaped : s.escaped = reading.isEscaped
  comment : reading ≠ .comment
  operator : reading ≠ .operator

/-- No live tilde, no newline that ends a comment, and neither `||` nor `;;`. -/
def Tame (live : List Live) : Prop := ∀ c ∈ ['~', '\n', '|', ';'], .other c ∉ live

instance (live : List Live) : Decidable (Tame live) :=
  List.decidableBAll (fun c => Live.other c ∉ live) ['~', '\n', '|', ';']

theorem Tame.of_append (before : List Live) {live : List Live} (h : Tame (before ++ live)) :
    Tame live :=
  fun c hc hmem => h c hc (List.mem_append_right _ hmem)

theorem Tame.of_cons {head : Live} {live : List Live} (h : Tame (head :: live)) : Tame live :=
  of_append [head] h

theorem liveSyntax_comment (h : .other '\n' ∉ liveSyntax .comment text) :
    liveSyntax .comment text = [] := by
  induction text with
  | nil => rfl
  | cons c rest ih =>
    by_cases hc : c = '\n'
    · subst hc
      simp [liveSyntax, marks] at h
    · simp only [liveSyntax, marks, if_neg hc, List.reduceOption_cons_of_none] at h ⊢
      exact ih h

theorem eq_tilde_of_isSpecial {c : Char} (h : isSpecial c) (hscan : ¬Scan.unsupported c) :
    c = '~' := by
  simp only [isSpecial, Scan.unsupported, decide_eq_true_eq, List.mem_cons, List.not_mem_nil,
    or_false, not_or] at h hscan
  tauto

variable {reading : Reading}

theorem Follows.escaped_cases (h : Follows s reading) (hescaped : s.escaped = true) (c : Char)
    (rest : List Char) :
    ∃ reading', liveSyntax reading (c :: rest) = liveSyntax reading' rest ∧
      reading'.quote = s.quote ∧ reading'.isEscaped = false ∧ reading' ≠ .comment ∧
        reading' ≠ .operator := by
  have hreading := hescaped.symm.trans h.escaped
  cases reading with
  | escaped inWord =>
    refine ⟨if c = '\n' ∧ ¬inWord then .blank else .word, rfl, ?_⟩
    rw [h.quote]
    split <;> exact ⟨rfl, rfl, by decide, by decide⟩
  | doubleEscaped => exact ⟨.double, rfl, h.quote.symm, rfl, by decide, by decide⟩
  | _ => cases hreading

theorem Follows.quoted_cases (h : Follows s reading) (hescaped : ¬s.escaped = true) {active : Char}
    (hquote : s.quote = some active) :
    (reading = .single ∧ active = singleQuote) ∨ (reading = .double ∧ active = doubleQuote) := by
  have hreading := hquote.symm.trans h.quote
  have hplain := h.escaped
  cases reading with
  | single => exact .inl ⟨rfl, Option.some.inj hreading⟩
  | double => exact .inr ⟨rfl, Option.some.inj hreading⟩
  | doubleEscaped => exact absurd hplain hescaped
  | _ => cases hreading

theorem Follows.bare_cases (h : Follows s reading) (hescaped : ¬s.escaped = true)
    (hquote : s.quote = none) : reading = .blank ∨ reading = .word := by
  have hreading := hquote.symm.trans h.quote
  have hplain := h.escaped
  cases reading with
  | blank => exact .inl rfl
  | word => exact .inr rfl
  | escaped inWord => exact absurd hplain hescaped
  | comment => exact absurd rfl h.comment
  | operator => exact absurd rfl h.operator
  | _ => cases hreading

theorem follows_blank (hquote : s.quote = none) (hescaped : ¬s.escaped = true)
    (hquote' : s'.quote = s.quote) (hescaped' : s'.escaped = s.escaped) : Follows s' .blank := by
  rw [Bool.not_eq_true] at hescaped
  exact ⟨hquote'.trans hquote, hescaped'.trans hescaped, by decide, by decide⟩

theorem liveSyntax_plain (hreading : reading = .blank ∨ reading = .word) {c : Char}
    (hbackslash : c ≠ backslash) (hquotes : ¬(c = singleQuote ∨ c = doubleQuote)) (hand : c ≠ '&')
    (hsequence : c ≠ ';') (hpipe : c ≠ '|') (rest : List Char) :
    liveSyntax reading (c :: rest) =
      if c = '#' ∧ reading = .blank then liveSyntax .comment rest
      else (if isSpecial c then [.other c] else []) ++
        liveSyntax (if isMeta c then .blank else .word) rest := by
  obtain ⟨hsingle, hdouble⟩ := not_or.mp hquotes
  rcases hreading with rfl | rfl <;>
  simp only [liveSyntax, marks, if_neg hsingle, if_neg hdouble, if_neg hbackslash, if_neg hand,
    if_neg hsequence, if_neg hpipe] <;>
  split_ifs <;> simp_all

/-- The separators of one character. -/
def singleSeparator (c : Char) : Separator := if c = ';' then .sequence else .pipe

theorem liveSyntax_single (hreading : reading = .blank ∨ reading = .word) {c : Char}
    (hc : c = ';' ∨ c = '|') {rest : List Char} (htame : Tame (liveSyntax reading (c :: rest))) :
    liveSyntax reading (c :: rest) = .separator (singleSeparator c) :: liveSyntax .blank rest := by
  have hmarks : marks reading (c :: rest) =
      if next? rest = some c then some (.other c) :: marks .operator rest
      else some (.separator (singleSeparator c)) :: marks .blank rest := by
    rcases hreading with rfl | rfl <;> rcases hc with rfl | rfl <;> rfl
  have hnext : next? rest ≠ some c := by
    intro hnext
    rw [liveSyntax, hmarks, if_pos hnext] at htame
    exact htame c (by rcases hc with rfl | rfl <;> decide) (by simp)
  rw [liveSyntax, hmarks, if_neg hnext, List.reduceOption_cons_of_some]
  rfl

/-- What a scan that succeeds says about the text. -/
def Scanned (s : Scan) (reading : Reading) (text : List Char) (result : List (List String)) :
    Prop :=
  ∃ separators more, liveSyntax reading text = separators.map .separator ∧
    s.Returns result (separators ++ more)

theorem Scanned.same {reading' : Reading} {text' : List Char} (h : Scanned s' reading' text' result)
    (hlive : liveSyntax reading text = liveSyntax reading' text') (hstages : s'.stages = s.stages)
    (hcommands : s'.commands = s.commands) : Scanned s reading text result := by
  obtain ⟨separators, more, hsyntax, hresult⟩ := h
  refine ⟨separators, more, hlive.trans hsyntax, ?_⟩
  unfold Scan.Returns at hresult ⊢
  rwa [hstages, hcommands] at hresult

theorem Scanned.cons {reading' : Reading} {text' : List Char} {separator : Separator}
    (h : Scanned s' reading' text' result)
    (hlive : liveSyntax reading text = .separator separator :: liveSyntax reading' text')
    (hreturns : ∀ separators, s'.Returns result separators →
      s.Returns result (separator :: separators)) : Scanned s reading text result := by
  obtain ⟨separators, more, hsyntax, hresult⟩ := h
  exact ⟨separator :: separators, more, by rw [hlive, hsyntax, List.map_cons], hreturns _ hresult⟩

/-- **The scan is right about what it reads**: beside tildes, ends of comments and doubled
operators, the live syntax of a text it accepts is made of separators of the stages it returns. -/
theorem live_of_scan (h : s.run text = some result) (hf : Follows s reading)
    (htame : Tame (liveSyntax reading text)) : Scanned s reading text result := by
  fun_induction Scan.run s text generalizing reading with
  | case2 s _ => exact ⟨[], [], rfl, Scan.returns_end h⟩
  | case3 s byte rest hescaped ih =>
    obtain ⟨reading', hlive, hquote, hplain, hcomment, hoperator⟩ :=
      hf.escaped_cases hescaped byte rest
    have hf' : Follows { s.push byte with escaped := false } reading' :=
      ⟨hquote.symm, hplain.symm, hcomment, hoperator⟩
    exact (ih h hf' (hlive ▸ htame)).same hlive rfl rfl
  | case4 s byte rest hescaped hbackslash ih =>
    obtain ⟨rfl, hsingle⟩ := hbackslash
    cases hquote : s.quote with
    | none =>
      have hf' (inWord : Bool) :
          Follows { s.push backslash with escaped := true } (.escaped inWord) :=
        ⟨hquote, rfl, by simp, by simp⟩
      rcases hf.bare_cases hescaped hquote with rfl | rfl
      · exact (ih h (hf' false) htame).same rfl rfl rfl
      · exact (ih h (hf' true) htame).same rfl rfl rfl
    | some active =>
      rcases hf.quoted_cases hescaped hquote with ⟨rfl, rfl⟩ | ⟨rfl, rfl⟩
      · exact absurd hquote hsingle
      · have hf' : Follows { s.push backslash with escaped := true } .doubleEscaped :=
          ⟨hquote, rfl, by decide, by decide⟩
        exact (ih h hf' htame).same rfl rfl rfl
  | case5 s rest hescaped active hquote hbackslash ih =>
    -- a closing quote leaves the shell in the word
    have hf' : Follows { s.push active with quote := none } .word :=
      ⟨rfl, Bool.not_eq_true _ ▸ hescaped, by decide, by decide⟩
    rcases hf.quoted_cases hescaped hquote with ⟨rfl, rfl⟩ | ⟨rfl, rfl⟩
    · exact (ih h hf' htame).same rfl rfl rfl
    · exact (ih h hf' htame).same rfl rfl rfl
  | case7 s byte rest hescaped hbackslash active hquote hactive hexpansion ih =>
    have hf' : Follows (s.push byte) reading := ⟨hf.quote, hf.escaped, hf.comment, hf.operator⟩
    have hlive : liveSyntax reading (byte :: rest) = liveSyntax reading rest := by
      rcases hf.quoted_cases hescaped hquote with ⟨rfl, rfl⟩ | ⟨rfl, rfl⟩
      · simp only [liveSyntax, marks, if_neg hactive, List.reduceOption_cons_of_none]
      · have hplain : ¬(byte = '$' ∨ byte = backquote) := fun hbyte => hexpansion ⟨rfl, hbyte⟩
        have hnot : byte ≠ backslash := fun hbyte => hbackslash ⟨hbyte, by rw [hquote]; decide⟩
        simp only [liveSyntax, marks, if_neg hactive, if_neg hnot, if_neg hplain,
          List.reduceOption_cons_of_none]
    exact (ih h hf' (hlive ▸ htame)).same hlive rfl rfl
  | case8 s byte rest hescaped hbackslash hquote hbyte ih =>
    have hplain : s.escaped = false := by simpa using hescaped
    rcases hbyte with rfl | rfl
    · have hf' : Follows { s.push singleQuote with quote := some singleQuote } .single :=
        ⟨rfl, hplain, by decide, by decide⟩
      have hlive : liveSyntax reading (singleQuote :: rest) = liveSyntax .single rest := by
        rcases hf.bare_cases hescaped hquote with rfl | rfl <;> rfl
      exact (ih h hf' (hlive ▸ htame)).same hlive rfl rfl
    · have hf' : Follows { s.push doubleQuote with quote := some doubleQuote } .double :=
        ⟨rfl, hplain, by decide, by decide⟩
      have hlive : liveSyntax reading (doubleQuote :: rest) = liveSyntax .double rest := by
        rcases hf.bare_cases hescaped hquote with rfl | rfl <;> rfl
      exact (ih h hf' (hlive ▸ htame)).same hlive rfl rfl
  | case9 s hescaped hquote rest s' hend _ _ ih =>
    obtain ⟨hquote', hescaped', -, -⟩ := Scan.endCommand_eq hend
    have hf' := follows_blank hquote hescaped hquote' hescaped'
    have hlive : liveSyntax reading ('&' :: '&' :: rest) =
        .separator .conjunction :: liveSyntax .blank rest := by
      rcases hf.bare_cases hescaped hquote with rfl | rfl <;> rfl
    rw [hlive] at htame
    exact (ih h hf' htame.of_cons).cons hlive
      fun _ hreturns => hreturns.of_endCommand hend (by decide)
  | case12 s rest hescaped hquote s' hend _ _ _ ih =>
    obtain ⟨hquote', hescaped', -, -⟩ := Scan.endCommand_eq hend
    have hf' := follows_blank hquote hescaped hquote' hescaped'
    have hlive : liveSyntax reading (';' :: rest) =
        .separator .sequence :: liveSyntax .blank rest :=
      liveSyntax_single (hf.bare_cases hescaped hquote) (.inl rfl) htame
    rw [hlive] at htame
    exact (ih h hf' htame.of_cons).cons hlive
      fun _ hreturns => hreturns.of_endCommand hend (by decide)
  | case15 s rest hescaped hquote hsingle s' hend _ _ _ _ ih =>
    obtain ⟨hquote', hescaped', -, -⟩ := Scan.endStage_eq hend
    have hf' := follows_blank hquote hescaped hquote' hescaped'
    have hlive : liveSyntax reading ('|' :: rest) = .separator .pipe :: liveSyntax .blank rest :=
      liveSyntax_single (hf.bare_cases hescaped hquote) (.inr rfl) htame
    rw [hlive] at htame
    exact (ih h hf' htame.of_cons).cons hlive
      fun _ hreturns => hreturns.of_pipe hend
  | case18 s byte rest hescaped hbackslash hquote hquotes hand hsequence hpipe hsupported ih =>
    have hplain : s.escaped = false := by simpa using hescaped
    have hnot : byte ≠ backslash := fun hbyte => hbackslash ⟨hbyte, by rw [hquote]; decide⟩
    have hlive := liveSyntax_plain (hf.bare_cases hescaped hquote) hnot hquotes hand hsequence hpipe
      rest
    by_cases hcomment : byte = '#' ∧ reading = .blank
    · -- the scan goes on through the comment, and finds stages the shell never reads
      rw [if_pos hcomment] at hlive
      rw [hlive] at htame
      obtain ⟨more, hreturns⟩ := Scan.exists_returns h
      exact ⟨[], more, hlive.trans (liveSyntax_comment (htame '\n' (by decide))), hreturns⟩
    · rw [if_neg hcomment] at hlive
      rw [hlive] at htame
      have hspecial : ¬isSpecial byte := by
        intro hspecial
        rw [eq_tilde_of_isSpecial hspecial hsupported] at htame
        exact htame '~' (by decide) (by simp [isSpecial])
      have hf' : Follows (s.push byte) (if isMeta byte then .blank else .word) := by
        split <;> exact ⟨hquote, hplain, by decide, by decide⟩
      rw [if_neg hspecial, List.nil_append] at hlive
      exact (ih h hf' (.of_append _ htame)).same hlive rfl rfl
  | _ => cases h

/-! ## Word splitting -/

/-- A character of a text, and what the shell takes it for. -/
abbrev Cell := Char × Option Live

/-- Where word splitting is; a word is collected in reverse. -/
inductive Splitting where
  | delimiter
  | unquoted
  | single
  | double
  | escaped (inWord : Bool)
  | doubleEscaped
  | comment

/-- POSIX word splitting and quote removal, as `shell_words::split` does it. -/
def splitCells (state : Splitting) (word : List Cell) : List Cell → Option (List (List Cell))
  | [] =>
    match state with
    | .delimiter | .comment => some []
    | .unquoted => some [word.reverse]
    | .escaped _ => some [((backslash, none) :: word).reverse]
    | .single | .double | .doubleEscaped => none
  | (c, mark) :: rest =>
    match state with
    | .comment =>
      if c = '\n' then splitCells .delimiter word rest else splitCells .comment word rest
    | .single =>
      if c = singleQuote then splitCells .unquoted word rest
      else splitCells .single ((c, mark) :: word) rest
    | .double =>
      if c = doubleQuote then splitCells .unquoted word rest
      else if c = backslash then splitCells .doubleEscaped word rest
      else splitCells .double ((c, mark) :: word) rest
    | .doubleEscaped =>
      if c = '\n' then splitCells .double word rest
      else if c = '$' ∨ c = backquote ∨ c = doubleQuote ∨ c = backslash then
        splitCells .double ((c, mark) :: word) rest
      else splitCells .double ((c, mark) :: (backslash, none) :: word) rest
    | .escaped inWord =>
      if c = '\n' then splitCells (if inWord then .unquoted else .delimiter) word rest
      else splitCells .unquoted ((c, mark) :: word) rest
    | .delimiter =>
      if c = singleQuote then splitCells .single word rest
      else if c = doubleQuote then splitCells .double word rest
      else if c = backslash then splitCells (.escaped false) word rest
      else if c = ' ' ∨ c = '\t' ∨ c = '\n' then splitCells .delimiter word rest
      else if c = '#' then splitCells .comment word rest
      else splitCells .unquoted ((c, mark) :: word) rest
    | .unquoted =>
      if c = singleQuote then splitCells .single word rest
      else if c = doubleQuote then splitCells .double word rest
      else if c = backslash then splitCells (.escaped true) word rest
      else if c = ' ' ∨ c = '\t' ∨ c = '\n' then
        (splitCells .delimiter [] rest).map (word.reverse :: ·)
      else splitCells .unquoted ((c, mark) :: word) rest

def characters (word : List Cell) : String := .ofList (word.map Prod.fst)

/-- `shell_words::split`. -/
def posixSplit (text : String) : Option (List String) :=
  (splitCells .delimiter [] (text.toList.map (·, none))).map (·.map characters)

/-- A text with what the shell takes its characters for. -/
def marked (text : String) : List Cell := text.toList.zip (marks .blank text.toList)

def erase (cell : Cell) : Cell := (cell.1, none)

theorem splitCells_erase (state : Splitting) (word cells : List Cell) :
    splitCells state (word.map erase) (cells.map erase) =
      (splitCells state word cells).map (·.map (·.map erase)) := by
  fun_induction splitCells state word cells <;> simp_all [splitCells, erase, Function.comp_def]

theorem length_marks (reading : Reading) (text : List Char) :
    (marks reading text).length = text.length := by
  fun_induction marks reading text <;> simp_all

theorem posixSplit_eq (text : String) :
    posixSplit text = (splitCells .delimiter [] (marked text)).map (·.map characters) := by
  have herased : text.toList.map (·, none) = (marked text).map erase := by
    have hfst : (marked text).map Prod.fst = text.toList :=
      List.map_fst_zip (length_marks .blank text.toList).ge
    rw [← hfst, List.map_map]
    rfl
  have hcells := splitCells_erase .delimiter [] (marked text)
  have hcharacters (word : List Cell) : characters (word.map erase) = characters word := by
    simp [characters, Function.comp_def, erase]
  rw [List.map_nil] at hcells
  rw [posixSplit, herased, hcells, Option.map_map]
  simp [Function.comp_def, hcharacters]

/-! ## What a presentation hides -/

/-- The live syntax of a text is made of separators between the returned stages. -/
def Separated (text : String) (commands : List ParsedCommand) : Prop :=
  ∃ separators more, liveSyntax .blank text.toList = separators.map .separator ∧
    commands.map (·.stages.length) = stageCounts 0 (separators ++ more)

/-- Whatever takes effect in the source of a wrapper stands in the body, and takes the same effect
there. -/
def Carried (source : String) : Prop :=
  match splitCells .delimiter [] (marked source) with
  | some [_, _, body] =>
    body.filterMap Prod.snd = liveSyntax .blank source.toList ∧
      ∀ place ∈ body.zip (marks .blank (body.map Prod.fst)),
        place.1.2 = none ∨ place.1.2 = place.2
  | _ => False

instance (source : String) : Decidable (Carried source) := by
  unfold Carried
  split <;> infer_instance

/-- The body that is scanned in place of a source. -/
def body? (source : String) : Option String := (posixSplit source).bind shellBody

/-- No syntax takes effect but the separators of the returned stages. -/
def ShowsSyntax (source : String) (commands : List ParsedCommand) : Prop :=
  match body? source with
  | none => Separated source commands
  | some body => Carried source ∧ Separated body commands

theorem stages_of_parseSource {split : String → Option (List String)} {source : String}
    {commands : List ParsedCommand} (h : parseSource split source = some commands) :
    ∃ result, splitPlainCommands source = some result ∧
      commands.map (·.stages.length) = result.map List.length := by
  obtain ⟨result, hresult, hmap⟩ := Option.bind_eq_some_iff.mp h
  refine ⟨result, hresult, ?_⟩
  have hstages := forall₂_of_mapM hmap
  clear h hresult hmap
  induction hstages with
  | nil => rfl
  | cons hcommand _ ih =>
    obtain ⟨words, hwords, rfl⟩ := Option.map_eq_some_iff.mp hcommand
    rw [List.map_cons, List.map_cons, ih, (forall₂_of_mapM hwords).length_eq]

/-- **A scanned text**: its live syntax separates the returned stages exactly when it has no live
tilde and no comment with a line after it. -/
theorem separated_iff {split : String → Option (List String)} {text : String}
    {commands : List ParsedCommand} (h : parseSource split text = some commands) :
    Separated text commands ↔ Tame (liveSyntax .blank text.toList) := by
  obtain ⟨result, hresult, hcommands⟩ := stages_of_parseSource h
  constructor
  · rintro ⟨separators, more, hlive, -⟩
    intro c _ hmem
    simp [hlive] at hmem
  · intro htame
    have hf : Follows {} .blank := ⟨rfl, rfl, by decide, by decide⟩
    obtain ⟨separators, more, hlive, hreturns⟩ := live_of_scan hresult hf htame
    exact ⟨separators, more, hlive, hcommands.trans hreturns⟩

/-- The scan takes the quotes in the comments for quotes; the shell runs the line between them. -/
example : parseSource posixSplit "cat a #'\nrm b\n#'" = some [⟨[["cat", "a", "rm", "b"]]⟩] ∧
    liveSyntax .blank "cat a #'\nrm b\n#'".toList = [.other '\n', .other '\n'] := by
  decide +kernel

/-- It takes the halves of a `||` with a continued line between for two pipes. -/
example : parseSource posixSplit "cat a |\x5c\n| rm b" =
      some [⟨[["cat", "a"], ["\x5c"], ["rm", "b"]]⟩] ∧
    liveSyntax .blank "cat a |\x5c\n| rm b".toList = [.other '|'] := by
  decide +kernel

/-- The `;` of this source is quoted in the body. -/
example : parseCommands posixSplit (.object [("command", .string "sh -c \"'a\";\"b'\"';c'")]) =
      some [⟨[["a;b"]]⟩, ⟨[["c"]]⟩] ∧
    ¬Carried "sh -c \"'a\";\"b'\"';c'" := by
  decide +kernel

end ShellCommands

end OpenAide
