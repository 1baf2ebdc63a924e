import OpenAide.Library.Text

/-!
# Hunks of a diff

`project_files/git.rs` shows the changes of a file as `git diff` prints them.  `parse_hunks` reads
the text line by line; it tells headers, content and markers apart by how a line begins, and counts
the line numbers itself (`parseHunks`).  `DiffFile` is what `git diff` has to print,
`DiffFile.print` the text; `diff.suppressBlankEmpty` of the user's configuration is a parameter. 
Counters of 32 bits wrap.

- `run_body`, `run_hunk`, `run_file`: what the parser makes of a part of the text;
- `parseHunks_print`: it returns every hunk, without the context lines printed as empty lines;
- `hunks_faithful_iff`: **the hunks are those of the diff exactly if no context line is printed as
  an empty line**.
-/

namespace OpenAide.ProjectFiles

open Library

/-! ## The parser -/

/-- A line without the carriage return before its newline. -/
def chop (line : List Char) : List Char :=
  if line.getLast? = some '\r' then line.dropLast else line

/-- `str::lines`. -/
def lines (text : List Char) : List (List Char) :=
  let pieces := text.splitOn '\n'
  pieces.dropLast.map chop ++ pieces.getLast?.toList.filter (!·.isEmpty)

/-- `str::split_whitespace`. -/
def splitWhitespace (text : List Char) : List (List Char) :=
  (text.splitOnP isWhitespace).filter (!·.isEmpty)

inductive DiffLineKind where
  | add
  | remove
  | context
  deriving DecidableEq

/-- `ProjectDiffLine` (`project_files.rs:116`). -/
structure ProjectDiffLine where
  kind : DiffLineKind
  text : List Char
  oldLine : Option Nat
  newLine : Option Nat
  deriving DecidableEq

/-- `ProjectDiffHunk` (`project_files.rs:110`). -/
structure ProjectDiffHunk where
  heading : List Char
  lines : List ProjectDiffLine
  deriving DecidableEq

structure Parser where
  hunks : List ProjectDiffHunk := []
  old : Nat := 0
  new : Nat := 0
  inHunk : Bool := false

/-- The first number of a range such as `-12,3`. -/
def number : Option (List Char) → Except String Nat
  | some (sign :: rest) =>
    match if sign.utf8Size = 1 then parseU32 (rest.takeWhile (· ≠ ',')) else none with
    | some n => .ok n
    | none => .error "unavailable"
  | _ => .error "unavailable"

def next (n : Nat) : Nat := (n + 1) % 2 ^ 32

def Parser.push (s : Parser) (line : ProjectDiffLine) : Parser :=
  { s with hunks := s.hunks.modifyLast fun hunk => { hunk with lines := hunk.lines ++ [line] } }

/-- One round of the loop of `parse_hunks`. -/
def Parser.line (s : Parser) (line : List Char) : Except String Parser :=
  let s := if "diff --git ".toList.isPrefixOf line then { s with inHunk := false } else s
  if "@@ ".toList.isPrefixOf line then do
    let fields := splitWhitespace line
    let old ← number fields[1]?
    let new ← number fields[2]?
    return { hunks := s.hunks ++ [⟨line, []⟩], old, new, inHunk := true }
  else if !s.inHunk || s.hunks.isEmpty then .ok s
  else
    match line with
    | '+' :: text => .ok { s.push ⟨.add, text, none, some s.new⟩ with new := next s.new }
    | '-' :: text => .ok { s.push ⟨.remove, text, some s.old, none⟩ with old := next s.old }
    | ' ' :: text =>
      .ok { s.push ⟨.context, text, some s.old, some s.new⟩ with
        old := next s.old, new := next s.new }
    | _ => .ok s

/-- `parse_hunks` (`git.rs:403`). -/
def parseHunks (output : List Char) : Except String (List ProjectDiffHunk) := do
  let s ← (lines output).foldlM Parser.line {}
  return s.hunks

/-! ## What is printed -/

inductive BodyLine where
  | context (text : List Char)
  | removed (text : List Char)
  | added (text : List Char)
  /-- A backslash and a message, where the last line has no newline. -/
  | noNewline (text : List Char)
  deriving DecidableEq

namespace BodyLine

def text : BodyLine → List Char
  | context text | removed text | added text | noNewline text => text

def isOld : BodyLine → Bool
  | context _ | removed _ => true
  | _ => false

def isNew : BodyLine → Bool
  | context _ | added _ => true
  | _ => false

/-- With `suppress` an empty context line is printed as an empty line. -/
def print (suppress : Bool) : BodyLine → List Char
  | context text => if suppress && text.isEmpty then [] else ' ' :: text
  | removed text => '-' :: text
  | added text => '+' :: text
  | noNewline text => '\\' :: text

end BodyLine

/-- The lines of a body with their numbers. -/
def numberLines (old new : Nat) : List BodyLine → List ProjectDiffLine
  | [] => []
  | .context text :: rest =>
    ⟨.context, chop text, some old, some new⟩ :: numberLines (old + 1) (new + 1) rest
  | .removed text :: rest => ⟨.remove, chop text, some old, none⟩ :: numberLines (old + 1) new rest
  | .added text :: rest => ⟨.add, chop text, none, some new⟩ :: numberLines old (new + 1) rest
  | .noNewline _ :: rest => numberLines old new rest

/-- A hunk whose line numbers are below 2^32. -/
structure Hunk where
  oldStart : Nat
  newStart : Nat
  title : List Char
  body : List BodyLine
  old_lt : oldStart < 2 ^ 32
  new_lt : newStart < 2 ^ 32
  old_le : oldStart + body.countP (·.isOld) ≤ 2 ^ 32
  new_le : newStart + body.countP (·.isNew) ≤ 2 ^ 32
  title_line : '\n' ∉ title
  body_lines : ∀ line ∈ body, '\n' ∉ line.text

/-- A start and, unless it is one, a length. -/
def range (start length : Nat) : List Char :=
  Nat.toDigits 10 start ++ if length = 1 then [] else ',' :: Nat.toDigits 10 length

namespace Hunk

variable (h : Hunk)

def heading : List Char :=
  ['@', '@'] ++ ' ' :: ('-' :: range h.oldStart (h.body.countP (·.isOld)) ++
    ' ' :: ('+' :: range h.newStart (h.body.countP (·.isNew)) ++
      ' ' :: '@' :: '@' :: if h.title = [] then [] else ' ' :: h.title))

def print (suppress : Bool) : List (List Char) := h.heading :: h.body.map (·.print suppress)

/-- The hunk with its line numbers. -/
def shown : ProjectDiffHunk := ⟨chop h.heading, numberLines h.oldStart h.newStart h.body⟩

end Hunk

/-- A file of the diff: no line of its header looks like the heading of a hunk. -/
structure DiffFile where
  paths : List Char
  header : List (List Char)
  hunks : List Hunk
  paths_line : '\n' ∉ paths
  header_lines : ∀ line ∈ header, '\n' ∉ line ∧ ¬ "@@ ".toList <+: line

def DiffFile.print (suppress : Bool) (file : DiffFile) : List (List Char) :=
  ("diff --git ".toList ++ file.paths) :: file.header ++ file.hunks.flatMap (·.print suppress)

/-- The text of a diff. -/
def printDiff (suppress : Bool) (files : List DiffFile) : List Char :=
  (files.flatMap (·.print suppress)).flatMap (· ++ ['\n'])

/-! ## Lines -/

section Text

variable {c : Char} {text rest : List Char}

@[simp] theorem chop_nil : chop [] = [] := rfl

theorem chop_append (l : List Char) (h : text ≠ []) : chop (l ++ text) = l ++ chop text := by
  have hlast : (l ++ text).getLast? = text.getLast? := by
    rw [List.getLast?_append, Option.or_of_isSome (by simpa using h)]
  unfold chop
  rw [hlast, List.dropLast_append_of_ne_nil h]
  split <;> rfl

theorem chop_cons (h : c ≠ '\r') : chop (c :: text) = c :: chop text := by
  by_cases hempty : text = []
  · subst hempty
    simp [chop, h]
  · exact chop_append [c] hempty

theorem chop_isPrefix (text : List Char) : chop text <+: text := by
  unfold chop
  split
  · exact List.dropLast_prefix text
  · exact List.prefix_rfl

theorem lines_flatMap {texts : List (List Char)} (h : ∀ text ∈ texts, '\n' ∉ text) :
    lines (texts.flatMap (· ++ ['\n'])) = texts.map chop := by
  have hsplit : (texts.flatMap (· ++ ['\n'])).splitOn '\n' = texts ++ [[]] := by
    induction texts with
    | nil => rfl
    | cons text rest ih =>
      have hline : ∀ c ∈ text, (c == '\n') = false := by
        intro c hc
        simpa using fun heq : c = '\n' => h text List.mem_cons_self (heq ▸ hc)
      rw [List.flatMap_cons, List.append_assoc, List.singleton_append]
      exact (List.splitOnP_append_cons_of_forall_mem hline '\n' (by decide) _).trans
        (congrArg (text :: ·) (ih fun other hother => h other (List.mem_cons_of_mem _ hother)))
  unfold lines
  simp [hsplit]

/-! ## Headings -/

theorem number_range (sign : Char) {start : Nat} (length : Nat) (hsign : sign.utf8Size = 1)
    (h : start < 2 ^ 32) : number (some (sign :: range start length)) = .ok start := by
  have htake : (range start length).takeWhile (· ≠ ',') = Nat.toDigits 10 start := by
    rw [range, List.takeWhile_append_of_pos]
    · split <;> simp
    · intro c hc
      have hdigit := Nat.isDigit_of_mem_toDigits (by decide) (by decide) hc
      simpa using fun heq : c = ',' => absurd (heq ▸ hdigit) (by decide)
  rw [number, if_pos hsign, htake, parseU32, parseUnsigned_toDigits, if_neg (by omega)]

theorem solid_range (start length : Nat) : ∀ c ∈ range start length, isWhitespace c = false := by
  have hdigits : ∀ n, ∀ c ∈ Nat.toDigits 10 n, isWhitespace c = false := by
    intro n c hc
    have hdigit := Nat.isDigit_of_mem_toDigits (by decide) (by decide) hc
    simp only [Char.isDigit, Bool.and_eq_true, decide_eq_true_eq] at hdigit
    have hlow : 48 ≤ c.toNat := hdigit.1
    have hhigh : c.toNat ≤ 57 := hdigit.2
    simp only [isWhitespace, Bool.or_eq_false_iff, Bool.and_eq_false_iff, decide_eq_false_iff_not,
      beq_eq_false_iff_ne]
    omega
  intro c hc
  rcases List.mem_append.mp hc with hstart | hlength
  · exact hdigits _ c hstart
  · split at hlength
    · cases hlength
    · rcases List.mem_cons.mp hlength with rfl | hlength
      · decide
      · exact hdigits _ c hlength

theorem splitWhitespace_append (hne : text ≠ []) (h : ∀ c ∈ text, isWhitespace c = false) :
    splitWhitespace (text ++ ' ' :: rest) = text :: splitWhitespace rest := by
  rw [splitWhitespace, List.splitOnP_append_cons_of_forall_mem h ' ' (by decide), List.filter_cons,
    if_pos (by simpa using hne)]
  rfl

end Text

theorem Hunk.chop_heading (h : Hunk) : ∃ rest, chop h.heading =
    ['@', '@'] ++ ' ' :: ('-' :: range h.oldStart (h.body.countP (·.isOld)) ++
      ' ' :: ('+' :: range h.newStart (h.body.countP (·.isNew)) ++ ' ' :: rest)) := by
  refine ⟨chop ('@' :: '@' :: if h.title = [] then [] else ' ' :: h.title), ?_⟩
  rw [Hunk.heading, chop_append _ (by simp), chop_cons (by decide), chop_append _ (by simp),
    chop_cons (by decide), chop_append _ (by simp), chop_cons (by decide)]

theorem line_heading (s : Parser) (h : Hunk) : s.line (chop h.heading) =
    .ok ⟨s.hunks ++ [⟨chop h.heading, []⟩], h.oldStart, h.newStart, true⟩ := by
  obtain ⟨rest, hheading⟩ := h.chop_heading
  have hold : ∀ c ∈ '-' :: range h.oldStart (h.body.countP (·.isOld)), isWhitespace c = false :=
    List.forall_mem_cons.mpr ⟨by decide, solid_range _ _⟩
  have hnew : ∀ c ∈ '+' :: range h.newStart (h.body.countP (·.isNew)), isWhitespace c = false :=
    List.forall_mem_cons.mpr ⟨by decide, solid_range _ _⟩
  have hfields : splitWhitespace (chop h.heading) = ['@', '@'] ::
      ('-' :: range h.oldStart (h.body.countP (·.isOld))) ::
      ('+' :: range h.newStart (h.body.countP (·.isNew))) :: splitWhitespace rest := by
    rw [hheading, splitWhitespace_append (by simp) (by simp [isWhitespace]),
      splitWhitespace_append (List.cons_ne_nil _ _) hold,
      splitWhitespace_append (List.cons_ne_nil _ _) hnew]
  have hdiff : "diff --git ".toList.isPrefixOf (chop h.heading) = false := by
    rw [hheading]
    rfl
  have hat : "@@ ".toList.isPrefixOf (chop h.heading) = true := by
    rw [hheading]
    rfl
  have hold' := number_range '-' (h.body.countP (·.isOld)) (by decide) h.old_lt
  have hnew' := number_range '+' (h.body.countP (·.isNew)) (by decide) h.new_lt
  unfold Parser.line
  simp only [hdiff, hat, if_true, hfields, Bool.false_eq_true, if_false, List.getElem?_cons_succ,
    List.getElem?_cons_zero, hold', hnew']
  rfl

/-! ## Bodies, hunks and files -/

/-- The lines that are not printed as an empty line. -/
def kept (suppress : Bool) (body : List BodyLine) : List BodyLine :=
  body.filter fun line => ¬ (suppress = true ∧ line = .context [])

theorem numberLines_append (old new : Nat) (a b : List BodyLine) :
    numberLines old new (a ++ b) = numberLines old new a ++
      numberLines (old + a.countP (·.isOld)) (new + a.countP (·.isNew)) b := by
  induction a generalizing old new with
  | nil => rfl
  | cons line rest ih =>
    cases line <;> simp [numberLines, ih, BodyLine.isOld, BodyLine.isNew] <;>
      congr 1 <;> omega

section Runs

variable {suppress : Bool} {before : List ProjectDiffHunk} {heading : List Char} {old new : Nat}

theorem push_concat (done : List ProjectDiffLine) (inHunk : Bool) (line : ProjectDiffLine) :
    Parser.push ⟨before ++ [⟨heading, done⟩], old, new, inHunk⟩ line =
      ⟨before ++ [⟨heading, done ++ [line]⟩], old, new, inHunk⟩ := by
  rw [Parser.push, List.modifyLast_concat]

theorem mod_of_counted {n : Nat} {p : BodyLine → Bool} {line : BodyLine}
    (h : n + [line].countP p ≤ 2 ^ 32) (hp : p line = true) : n % 2 ^ 32 = n := by
  rw [List.countP_singleton, if_pos hp] at h
  exact Nat.mod_eq_of_lt h

/-- One line of a body. -/
theorem line_body (line : BodyLine) (done : List ProjectDiffLine)
    (hold : old + (kept suppress [line]).countP (·.isOld) ≤ 2 ^ 32)
    (hnew : new + (kept suppress [line]).countP (·.isNew) ≤ 2 ^ 32) :
    Parser.line ⟨before ++ [⟨heading, done⟩], old % 2 ^ 32, new % 2 ^ 32, true⟩
        (chop (line.print suppress)) =
      .ok ⟨before ++ [⟨heading, done ++ numberLines old new (kept suppress [line])⟩],
        (old + (kept suppress [line]).countP (·.isOld)) % 2 ^ 32,
        (new + (kept suppress [line]).countP (·.isNew)) % 2 ^ 32, true⟩ := by
  by_cases hblank : suppress = true ∧ line = .context []
  · obtain ⟨rfl, rfl⟩ := hblank
    simp [Parser.line, BodyLine.print, kept, numberLines]
  · have hkept : kept suppress [line] = [line] := by
      rw [kept, List.filter_cons, if_pos (decide_eq_true hblank), List.filter_nil]
    rw [hkept] at hold hnew ⊢
    cases line with
    | context text =>
      have hprint : (BodyLine.context text).print suppress = ' ' :: text := by
        rw [BodyLine.print, if_neg (by simpa using hblank)]
      rw [hprint, chop_cons (by decide), mod_of_counted hold rfl, mod_of_counted hnew rfl]
      simp [Parser.line, push_concat, numberLines, BodyLine.isOld, BodyLine.isNew, next]
    | removed text =>
      rw [BodyLine.print, chop_cons (by decide), mod_of_counted hold rfl]
      simp [Parser.line, push_concat, numberLines, BodyLine.isOld, BodyLine.isNew, next]
    | added text =>
      rw [BodyLine.print, chop_cons (by decide), mod_of_counted hnew rfl]
      simp [Parser.line, push_concat, numberLines, BodyLine.isOld, BodyLine.isNew, next]
    | noNewline text =>
      rw [BodyLine.print, chop_cons (by decide)]
      simp [Parser.line, numberLines, BodyLine.isOld, BodyLine.isNew]

theorem run_cons {s s' : Parser} {line : List Char} {rest : List (List Char)}
    (h : s.line line = .ok s') :
    (line :: rest).foldlM Parser.line s = rest.foldlM Parser.line s' := by
  rw [List.foldlM_cons, h]
  rfl

theorem run_append {s s' : Parser} {a b : List (List Char)} (h : a.foldlM Parser.line s = .ok s') :
    (a ++ b).foldlM Parser.line s = b.foldlM Parser.line s' := by
  rw [List.foldlM_append, h]
  rfl

/-- The lines of a body. -/
theorem run_body (before : List ProjectDiffHunk) (heading : List Char) (body : List BodyLine)
    (done : List ProjectDiffLine) (hold : old + (kept suppress body).countP (·.isOld) ≤ 2 ^ 32)
    (hnew : new + (kept suppress body).countP (·.isNew) ≤ 2 ^ 32) :
    ∃ old' new', (body.map fun line => chop (line.print suppress)).foldlM Parser.line
        ⟨before ++ [⟨heading, done⟩], old % 2 ^ 32, new % 2 ^ 32, true⟩ =
      .ok ⟨before ++ [⟨heading, done ++ numberLines old new (kept suppress body)⟩], old',
      new', true⟩ := by
  induction body generalizing done old new with
  | nil => exact ⟨_, _, by simp [kept, numberLines]; rfl⟩
  | cons line rest ih =>
    have hcons : kept suppress (line :: rest) = kept suppress [line] ++ kept suppress rest :=
      List.filter_append [line] rest
    rw [hcons, List.countP_append] at hold hnew
    obtain ⟨old', new', hrest⟩ := ih (done ++ numberLines old new (kept suppress [line]))
      (by omega : old + (kept suppress [line]).countP (·.isOld) + _ ≤ _)
      (by omega : new + (kept suppress [line]).countP (·.isNew) + _ ≤ _)
    refine ⟨old', new', ?_⟩
    rw [List.map_cons, run_cons (line_body line done (by omega) (by omega)), hcons,
      numberLines_append, ← List.append_assoc]
    exact hrest

/-- A hunk as it is read. -/
def Hunk.read (suppress : Bool) (h : Hunk) : ProjectDiffHunk :=
  ⟨chop h.heading, numberLines h.oldStart h.newStart (kept suppress h.body)⟩

theorem run_hunks (suppress : Bool) (hunks : List Hunk) (s : Parser) : ∃ old' new' inHunk,
    ((hunks.flatMap (·.print suppress)).map chop).foldlM Parser.line s =
      .ok ⟨s.hunks ++ hunks.map (·.read suppress), old', new', inHunk⟩ := by
  induction hunks generalizing s with
  | nil => exact ⟨s.old, s.new, s.inHunk, by simp; rfl⟩
  | cons h rest ih =>
    have hold : h.oldStart + (kept suppress h.body).countP (·.isOld) ≤ 2 ^ 32 :=
      (Nat.add_le_add_left List.filter_sublist.countP_le _).trans h.old_le
    have hnew : h.newStart + (kept suppress h.body).countP (·.isNew) ≤ 2 ^ 32 :=
      (Nat.add_le_add_left List.filter_sublist.countP_le _).trans h.new_le
    obtain ⟨old', new', hbody⟩ := run_body s.hunks (chop h.heading) h.body [] hold hnew
    rw [Nat.mod_eq_of_lt h.old_lt, Nat.mod_eq_of_lt h.new_lt] at hbody
    obtain ⟨old'', new'', inHunk, hrest⟩ := ih ⟨s.hunks ++ [h.read suppress], old', new', true⟩
    refine ⟨old'', new'', inHunk, ?_⟩
    have hread : ((h.print suppress).map chop).foldlM Parser.line s =
        .ok ⟨s.hunks ++ [h.read suppress], old', new', true⟩ := by
      rw [Hunk.print, List.map_cons, List.map_map, run_cons (line_heading s h)]
      exact hbody
    rw [List.flatMap_cons, List.map_append, run_append hread, hrest, List.map_cons,
      List.append_assoc, List.singleton_append]

theorem line_diff (s : Parser) (paths : List Char) :
    s.line (chop ("diff --git ".toList ++ paths)) = .ok { s with inHunk := false } := by
  have hchop : chop ("diff --git ".toList ++ paths) = "diff --git ".toList ++ chop paths := by
    by_cases hempty : paths = []
    · subst hempty
      decide
    · exact chop_append _ hempty
  have hdiff : "diff --git ".toList.isPrefixOf ("diff --git ".toList ++ chop paths) = true :=
    List.isPrefixOf_iff_prefix.mpr (List.prefix_append ..)
  have hat : "@@ ".toList.isPrefixOf ("diff --git ".toList ++ chop paths) = false := rfl
  rw [hchop]
  simp only [Parser.line, hdiff, hat, Bool.false_eq_true, if_false, if_true, Bool.not_false,
    Bool.true_or]

theorem run_header {header : List (List Char)} (h : ∀ line ∈ header, ¬ "@@ ".toList <+: line)
    (s : Parser) (hs : s.inHunk = false) : (header.map chop).foldlM Parser.line s = .ok s := by
  induction header with
  | nil => rfl
  | cons line rest ih =>
    have hat : "@@ ".toList.isPrefixOf (chop line) = false := by
      rw [← Bool.not_eq_true, List.isPrefixOf_iff_prefix]
      exact fun hat => h line List.mem_cons_self (hat.trans (chop_isPrefix line))
    have hline : s.line (chop line) = .ok s := by
      cases s
      cases hs
      simp only [Parser.line, ite_self, hat, Bool.false_eq_true, if_false, Bool.not_false,
        Bool.true_or, if_true]
    rw [List.map_cons, run_cons hline]
    exact ih fun other hother => h other (List.mem_cons_of_mem _ hother)

theorem run_files (files : List DiffFile) (s : Parser) : ∃ s',
    ((files.flatMap (·.print suppress)).map chop).foldlM Parser.line s = .ok s' ∧
      s'.hunks = s.hunks ++ (files.flatMap (·.hunks)).map (·.read suppress) := by
  induction files generalizing s with
  | nil => exact ⟨s, rfl, by simp⟩
  | cons file rest ih =>
    obtain ⟨old, new, inHunk, hhunks⟩ := run_hunks suppress file.hunks
      { s with inHunk := false }
    obtain ⟨s', hrest, heq⟩ := ih ⟨s.hunks ++ file.hunks.map (·.read suppress), old, new, inHunk⟩
    have hread : ((file.print suppress).map chop).foldlM Parser.line s =
        .ok ⟨s.hunks ++ file.hunks.map (·.read suppress), old, new, inHunk⟩ := by
      rw [DiffFile.print, List.map_append, List.map_cons, List.cons_append,
        run_cons (line_diff s file.paths),
        run_append (run_header (fun line hline => (file.header_lines line hline).2) _ rfl), hhunks]
    refine ⟨s', ?_, by simp [heq]⟩
    rw [List.flatMap_cons, List.map_append, run_append hread, hrest]

end Runs

theorem DiffFile.newline_not_mem (file : DiffFile) {suppress : Bool} {line : List Char}
    (h : line ∈ file.print suppress) : '\n' ∉ line := by
  have hrange : ∀ start length, '\n' ∉ range start length := fun start length hmem =>
    absurd (solid_range start length _ hmem) (by decide)
  rw [DiffFile.print, List.mem_append, List.mem_cons, List.mem_flatMap] at h
  rcases h with (rfl | hheader) | ⟨hunk, -, hline⟩
  · simpa using file.paths_line
  · exact (file.header_lines line hheader).1
  · rcases List.mem_cons.mp hline with rfl | hline
    · have htitle := hunk.title_line
      unfold Hunk.heading
      split <;> simp_all
    · obtain ⟨part, hpart, rfl⟩ := List.mem_map.mp hline
      have htext := hunk.body_lines part hpart
      cases part with
      | context text =>
        rw [BodyLine.print]
        split
        · simp
        · simpa [BodyLine.text] using htext
      | _ => simpa [BodyLine.print, BodyLine.text] using htext

/-- **What is read of a diff.** -/
theorem parseHunks_print (suppress : Bool) (files : List DiffFile) :
    parseHunks (printDiff suppress files) =
      .ok ((files.flatMap (·.hunks)).map (·.read suppress)) := by
  have hlines : ∀ line ∈ files.flatMap (·.print suppress), '\n' ∉ line := by
    intro line hline
    obtain ⟨file, -, hline⟩ := List.mem_flatMap.mp hline
    exact file.newline_not_mem hline
  obtain ⟨s, hrun, hhunks⟩ := run_files files {}
  rw [parseHunks, printDiff, lines_flatMap hlines, hrun]
  show Except.ok s.hunks = _
  rw [hhunks]
  rfl

/-! ## Where the hunks are those of the diff -/

theorem length_numberLines (old new : Nat) (body : List BodyLine) :
    (numberLines old new body).length = body.countP fun line => line.isOld || line.isNew := by
  induction body generalizing old new with
  | nil => rfl
  | cons line rest ih => cases line <;> simp [numberLines, ih, BodyLine.isOld, BodyLine.isNew]

theorem read_eq_shown_iff (suppress : Bool) (h : Hunk) :
    h.read suppress = h.shown ↔ ¬ (suppress = true ∧ .context [] ∈ h.body) := by
  constructor
  · rintro hread ⟨rfl, hblank⟩
    -- the line is counted in the body, and not in what is read
    have hlines := congrArg (·.lines.length) hread
    simp only [Hunk.read, Hunk.shown, length_numberLines, List.countP_eq_length_filter] at hlines
    have hsame := (List.filter_sublist.filter _).eq_of_length hlines
    have hmem : .context [] ∈ (kept true h.body).filter fun line => line.isOld || line.isNew :=
      hsame ▸ List.mem_filter.mpr ⟨hblank, rfl⟩
    simpa [kept] using List.mem_of_mem_filter hmem
  · intro hkept
    have hbody : kept suppress h.body = h.body := List.filter_eq_self.mpr fun line hline =>
      decide_eq_true fun hblank => hkept ⟨hblank.1, hblank.2 ▸ hline⟩
    rw [Hunk.read, Hunk.shown, hbody]

/-- **The hunks of a diff are read faithfully** exactly if no context line is printed as an empty
line: in order, with consecutive numbers from the starts of the heading, and with the kinds and
texts of the body. -/
theorem hunks_faithful_iff (suppress : Bool) (files : List DiffFile) :
    parseHunks (printDiff suppress files) = .ok ((files.flatMap (·.hunks)).map (·.shown)) ↔
      ¬ (suppress = true ∧ ∃ file ∈ files, ∃ hunk ∈ file.hunks, .context [] ∈ hunk.body) := by
  rw [parseHunks_print, Except.ok.injEq, List.map_inj_left]
  simp only [read_eq_shown_iff, List.mem_flatMap]
  constructor
  · rintro h ⟨hsuppress, file, hfile, hunk, hhunk, hblank⟩
    exact h hunk ⟨file, hfile, hhunk⟩ ⟨hsuppress, hblank⟩
  · rintro h hunk ⟨file, hfile, hhunk⟩ ⟨hsuppress, hblank⟩
    exact h ⟨hsuppress, file, hfile, hunk, hhunk, hblank⟩

/-- A context line, a line that is added, and the file they are in. -/
def blankContext : DiffFile where
  paths := "a/x b/x".toList
  header := ["--- a/x".toList, "+++ b/x".toList]
  hunks := [{
    oldStart := 1, newStart := 1, title := [], body := [.context [], .added "x".toList]
    old_lt := by decide, new_lt := by decide, old_le := by decide, new_le := by decide
    title_line := by simp, body_lines := by decide }]
  paths_line := by decide
  header_lines := by decide

/-- **An empty line is left out**, and the line after it gets its number. -/
theorem empty_context_line_dropped :
    parseHunks (printDiff true [blankContext]) =
      .ok [⟨"@@ -1 +1,2 @@".toList, [⟨.add, "x".toList, none, some 1⟩]⟩] ∧
    parseHunks (printDiff true [blankContext]) ≠
      .ok (([blankContext].flatMap (·.hunks)).map (·.shown)) := by
  decide +kernel

end OpenAide.ProjectFiles
