import OpenAide.Library.Programs

/-!
# Files on a disk that can fail

A disk of files named by paths `π`, as a `Device`: what each system call does, what it is refused
for, and what a crash or an I/O error in the middle of it can leave.  A write that fails or is cut
off leaves a byte prefix of what it was to append; renaming, removing, creating and truncating are
atomic, they have happened or they have not.  The disk also carries the supply of identifiers that
are still unused, so that a name made from a fresh one is new.  Numbers are written to files in
fixed-width little-endian form (`toLE`, `fromLE`).
-/

namespace OpenAide.Library

open Outcome (crashed_ne error_ne)

/-- The contents of a file. -/
abbrev Bytes := List UInt8

/-- The bytes of an ASCII text. -/
def asciiBytes (text : String) : Bytes := text.toList.map fun c => UInt8.ofNat c.toNat

/-! ## Little-endian numbers -/

/-- The `width` low bytes of `n`, least significant first. -/
def toLE : (width : Nat) → Nat → Bytes
  | 0, _ => []
  | width + 1, n => UInt8.ofNat (n % 256) :: toLE width (n / 256)

/-- The number a little-endian byte list stands for. -/
def fromLE : Bytes → Nat
  | [] => 0
  | b :: rest => b.toNat + 256 * fromLE rest

@[simp] theorem length_toLE (width n : Nat) : (toLE width n).length = width := by
  induction width generalizing n with
  | zero => rfl
  | succ width ih => simp [toLE, ih]

theorem fromLE_toLE {width n : Nat} (h : n < 256 ^ width) : fromLE (toLE width n) = n := by
  induction width generalizing n with
  | zero => simp at h; simp [toLE, fromLE, h]
  | succ width ih =>
    have hlow : (UInt8.ofNat (n % 256)).toNat = n % 256 := by
      simp [UInt8.toNat_ofNat']
    have hhigh : n / 256 < 256 ^ width := by
      rw [pow_succ] at h
      exact Nat.div_lt_of_lt_mul (by linarith)
    rw [toLE, fromLE, hlow, ih hhigh, Nat.mod_add_div]

/-! ## The disk -/

/-- Why a system call failed (`std::io::ErrorKind`). -/
inductive IoErrorKind where
  | notFound | permissionDenied | alreadyExists | invalidInput | invalidData | timedOut
  | writeZero | unexpectedEof | outOfMemory | unsupported | other
  deriving DecidableEq

/-- The files of a disk and the identifiers handed out so far (those below `nextId`). -/
structure FileSystem (π : Type) where
  files : π → Option Bytes
  nextId : Nat

/-- The system calls. -/
inductive FileAction (π : Type) where
  /-- Open or inspect an existing file. -/
  | access (p : π)
  | createNew (p : π)
  | append (p : π) (bytes : Bytes)
  | setLen (p : π) (len : Nat)
  /-- Replace the contents of an existing file by one byte or fewer, in place. -/
  | overwrite (p : π) (byte : UInt8)
  | rename (source target : π)
  | remove (p : π)
  | sync
  deriving DecidableEq

namespace FileSystem

variable {π : Type} [DecidableEq π]

/-- The disk with one file set or removed. -/
def set (fs : FileSystem π) (p : π) (content : Option Bytes) : FileSystem π :=
  { fs with files := Function.update fs.files p content }

variable (fs : FileSystem π)

@[simp] theorem set_files_self (p : π) (c : Option Bytes) :
    (fs.set p c).files p = c := by simp [set]

@[simp] theorem set_files_of_ne {p q : π} (c : Option Bytes) (h : q ≠ p) :
    (fs.set p c).files q = fs.files q := by simp [set, h]

@[simp] theorem set_nextId (p : π) (c : Option Bytes) : (fs.set p c).nextId = fs.nextId := rfl

@[simp] theorem set_set (p : π) (c c' : Option Bytes) :
    (fs.set p c).set p c' = fs.set p c' := by simp [set]

theorem set_comm {p q : π} (h : p ≠ q) (c c' : Option Bytes) :
    (fs.set p c).set q c' = (fs.set q c').set p c := by
  simp [set, Function.update_comm h]

@[simp] theorem set_self (p : π) : fs.set p (fs.files p) = fs := by
  simp [set]

/-- What a system call does when the environment lets it through. -/
def perform (fs : FileSystem π) : FileAction π → Except IoErrorKind (FileSystem π)
  | .access p => match fs.files p with
    | some _ => .ok fs
    | none => .error .notFound
  | .createNew p => match fs.files p with
    | some _ => .error .alreadyExists
    | none => .ok (fs.set p (some []))
  | .append p bytes => match fs.files p with
    | some content => .ok (fs.set p (some (content ++ bytes)))
    | none => .error .notFound
  | .setLen p len => match fs.files p with
    | some content => .ok (fs.set p (some (content.take len)))
    | none => .error .notFound
  | .overwrite p byte => match fs.files p with
    | some content => .ok (fs.set p (some (byte :: content.drop 1)))
    | none => .error .notFound
  | .rename source target => match fs.files source with
    | some content => .ok ((fs.set target (some content)).set source none)
    | none => .error .notFound
  | .remove p => match fs.files p with
    | some _ => .ok (fs.set p none)
    | none => .error .notFound
  | .sync => .ok fs

/-- The disks an interrupted system call can leave: the old one, the new one, and for a write any
byte prefix of it. -/
inductive Torn (fs : FileSystem π) : FileAction π → FileSystem π → Prop where
  | untouched (a) : Torn fs a fs
  | finished {a fs'} (h : fs.perform a = .ok fs') : Torn fs a fs'
  | partly {p bytes content} (k : Nat) (h : fs.files p = some content) :
      Torn fs (.append p bytes) (fs.set p (some (content ++ bytes.take k)))

instance : Device (FileSystem π) (FileAction π) IoErrorKind where
  perform a fs := fs.perform a
  torn a fs fs' := fs.Torn a fs'
  fault e := e ≠ .notFound ∧ e ≠ .alreadyExists
  torn_refl a _ := .untouched a

@[simp] theorem device_perform (a : FileAction π) (fs : FileSystem π) :
    (Device.perform a fs : Except IoErrorKind (FileSystem π)) = fs.perform a := rfl

end FileSystem

/-! ## Programs over files -/

/-- Programs over a disk that fail with `ε`. -/
abbrev FileProg (π ε α : Type) := Prog (FileSystem π) (FileAction π) IoErrorKind ε α

namespace FileProg

variable {π ε α : Type}

/-- The contents of a file. -/
def readFile (p : π) (wrap : IoErrorKind → ε) : FileProg π ε Bytes :=
  .act (.access p) (.read fun fs => .pure ((fs.files p).getD [])) fun e => .throw (wrap e)

/-- An identifier no one has used. -/
def freshId : FileProg π ε Nat :=
  .read fun fs => .modify (fun fs => { fs with nextId := fs.nextId + 1 }) (.pure fs.nextId)

variable [DecidableEq π]

@[simp] theorem exec_perform (a : FileAction π) (wrap : IoErrorKind → ε) (fs : FileSystem π) :
    Prog.exec (Prog.perform a wrap : FileProg π ε Unit) fs =
      match fs.perform a with
      | .ok fs' => (.ok (), fs')
      | .error e => (.error (wrap e), fs) := by
  cases h : fs.perform a <;> simp [Prog.perform, Prog.exec, h]

variable {wrap : IoErrorKind → ε} {fs : FileSystem π}

@[simp] theorem exec_readFile {p : π} :
    Prog.exec (readFile p wrap) fs =
      match fs.files p with
      | some content => (.ok content, fs)
      | none => (.error (wrap .notFound), fs) := by
  cases h : fs.files p <;> simp [readFile, Prog.exec, FileSystem.perform, h]

@[simp] theorem exec_freshId (fs : FileSystem π) :
    Prog.exec (freshId : FileProg π ε Nat) fs =
      (.ok fs.nextId, { fs with nextId := fs.nextId + 1 }) := rfl

theorem ensures_perform {a : FileAction π} {Q : Outcome ε Unit → FileSystem π → Prop}
    (htorn : ∀ fs', fs.Torn a fs' → Q .crashed fs' ∧ ∀ e, Q (.error (wrap e)) fs')
    (hok : ∀ fs', fs.perform a = .ok fs' → Q (.ok ()) fs') :
    Prog.Ensures (Prog.perform a wrap : FileProg π ε Unit) fs Q := by
  refine .of_act (fun fs' ht => ⟨(htorn fs' ht).1, fun e _ => ?_⟩) (fun fs' hp => ?_) fun e _ => ?_
  · exact .of_throw ((htorn fs' ht).2 e) (htorn fs' ht).1
  · exact .of_pure (hok fs' hp) (htorn fs' (.finished hp)).1
  · exact .of_throw ((htorn fs (.untouched a)).2 e) (htorn fs (.untouched a)).1

theorem ensures_readFile {p : π} {Q : Outcome ε Bytes → FileSystem π → Prop}
    (hcrash : Q .crashed fs) (herr : ∀ e, Q (.error (wrap e)) fs)
    (hok : ∀ content, fs.files p = some content → Q (.ok content) fs) :
    Prog.Ensures (readFile p wrap) fs Q := by
  have hsame : ∀ fs', fs.Torn (.access p) fs' → fs' = fs := by
    intro fs' ht
    cases ht with
    | untouched => rfl
    | finished h => simp only [FileSystem.perform] at h; split at h <;> simp_all
  refine .of_act (fun fs' ht => ?_) (fun fs' hp => ?_) fun e _ => .of_throw (herr e) hcrash
  · rw [hsame fs' ht]
    exact ⟨hcrash, fun e _ => .of_throw (herr e) hcrash⟩
  · obtain rfl := hsame fs' (.finished hp)
    cases hc : fs'.files p with
    | none => simp [FileSystem.perform, hc] at hp
    | some content =>
      refine .of_read (.of_pure ?_ hcrash)
      rw [hc]
      exact hok content hc

/-! ## Replacing a file atomically -/

/-- Write the bytes to a temporary file and rename it over the target. -/
def writeAndRename (temporary target : π) (bytes : Bytes) (wrap : IoErrorKind → ε) :
    FileProg π ε Unit := do
  Prog.perform (.createNew temporary) wrap
  Prog.perform (.append temporary bytes) wrap
  Prog.perform .sync wrap
  Prog.perform (.rename temporary target) wrap
  Prog.perform .sync wrap

/-- Remove a temporary file, if that is possible, and report the error that made it useless. -/
def discard (temporary : π) (wrap : IoErrorKind → ε) (e : ε) : FileProg π ε Unit := do
  Prog.tryCatch (Prog.perform (.remove temporary) wrap) fun _ => .pure ()
  .throw e

/-- Replace a file through a temporary one, which does not stay behind if that fails. -/
def replaceFile (temporary target : π) (bytes : Bytes) (wrap : IoErrorKind → ε) :
    FileProg π ε Unit :=
  Prog.tryCatch (writeAndRename temporary target bytes wrap) (discard temporary wrap)

end FileProg

namespace FileSystem

variable {π : Type} [DecidableEq π] {fs fs' : FileSystem π} {p : π}

theorem torn_sync (h : fs.Torn .sync fs') : fs' = fs := by
  cases h with
  | untouched => rfl
  | finished h => cases h; rfl

theorem torn_access (h : fs.Torn (.access p) fs') : fs' = fs := by
  cases h with
  | untouched => rfl
  | finished h =>
    simp only [perform] at h
    split at h
    · cases h; rfl
    · cases h

/-- Calls that only touch the file they name. -/
def touches (p : π) : FileAction π → Prop
  | .access q => q = p
  | .createNew q => q = p
  | .append q _ => q = p
  | .setLen q _ => q = p
  | .overwrite q _ => q = p
  | .rename _ _ => False
  | .remove q => q = p
  | .sync => True

theorem perform_touches {a : FileAction π} (ha : touches p a) (h : fs.perform a = .ok fs') :
    ∃ content, fs' = fs.set p content := by
  have hself : ∃ content, fs = fs.set p content := ⟨fs.files p, (set_self fs p).symm⟩
  cases a with
  | sync => cases h; exact hself
  | rename => cases ha
  | _ =>
    cases ha
    simp only [perform] at h
    split at h
    all_goals cases h
    all_goals first | exact hself | exact ⟨_, rfl⟩

theorem torn_touches {a : FileAction π} (ha : touches p a) (h : fs.Torn a fs') :
    ∃ content, fs' = fs.set p content := by
  cases h with
  | untouched => exact ⟨fs.files p, (set_self fs p).symm⟩
  | finished h => exact perform_touches ha h
  | partly k h => cases ha; exact ⟨_, rfl⟩

end FileSystem

namespace FileProg

variable {π ε : Type} [DecidableEq π]

/-- Leaves of a replacement: the disk with nothing changed but the temporary file, or with the
target replaced as well, the latter if the program returned. -/
def Replaced (temporary target : π) (bytes : Bytes) (fs : FileSystem π) (o : Outcome ε Unit)
    (fs' : FileSystem π) : Prop :=
  (o ≠ .ok () ∧ ∃ content, fs' = fs.set temporary content) ∨
    ∃ content, fs' = (fs.set target (some bytes)).set temporary content

section Replace

variable {temporary target : π} {bytes : Bytes} {wrap : IoErrorKind → ε} {fs : FileSystem π}

variable {fs₁ : FileSystem π}

theorem total_perform {a : FileAction π}
    {Q : Outcome ε Unit → FileSystem π → Prop} (hp : fs.perform a = .ok fs₁)
    (htorn : ∀ fs', fs.Torn a fs' → Q .crashed fs' ∧ ∀ e, Q (.error (wrap e)) fs')
    (hok : Q (.ok ()) fs₁) : Prog.Total (Prog.perform a wrap : FileProg π ε Unit) fs Q := by
  refine ⟨ensures_perform htorn fun fs' h => ?_, (), ?_⟩
  · rw [hp] at h
    cases h
    exact hok
  · rw [exec_perform, hp]

variable {o : Outcome ε Unit}

theorem Replaced.of_temporary (ho : o ≠ .ok ()) {fs' : FileSystem π}
    (h₁ : ∃ content, fs₁ = fs.set temporary content)
    (h' : ∃ content, fs' = fs₁.set temporary content) :
    Replaced temporary target bytes fs o fs' := by
  obtain ⟨c₁, rfl⟩ := h₁
  obtain ⟨c', rfl⟩ := h'
  exact .inl ⟨ho, c', FileSystem.set_set _ _ _ _⟩

theorem Replaced.touch {o' : Outcome ε Unit} (ho' : o' ≠ .ok ()) {fs' : FileSystem π}
    (h : Replaced temporary target bytes fs o fs₁)
    (h' : ∃ content, fs' = fs₁.set temporary content) :
    Replaced temporary target bytes fs o' fs' := by
  obtain ⟨c', rfl⟩ := h'
  rcases h with ⟨_, c, rfl⟩ | ⟨c, rfl⟩
  · exact .inl ⟨ho', c', FileSystem.set_set _ _ _ _⟩
  · exact .inr ⟨c', FileSystem.set_set _ _ _ _⟩

theorem ensures_discard {e : ε} (h : Replaced temporary target bytes fs o fs₁) :
    Prog.Ensures (discard temporary wrap e) fs₁ (Replaced temporary target bytes fs) := by
  have hremove : FileSystem.touches temporary (.remove temporary) := rfl
  have hthrow : ∀ fs', (∃ content, fs' = fs₁.set temporary content) →
      Prog.Ensures (.throw e : FileProg π ε Unit) fs' (Replaced temporary target bytes fs) :=
    fun fs' h' => .of_throw (h.touch error_ne h') (h.touch crashed_ne h')
  refine .of_bind (.of_tryCatch (ensures_perform (fun fs' ht => ?_) fun fs' hp => ?_))
  · have h' := FileSystem.torn_touches hremove ht
    exact ⟨h.touch crashed_ne h',
      fun _ => Prog.Ensures.of_pure (hthrow fs' h') (h.touch crashed_ne h')⟩
  · exact hthrow fs' (FileSystem.perform_touches hremove hp)

theorem total_step {a : FileAction π} {fs₂ : FileSystem π}
    {next : Unit → FileProg π ε Unit} (h₁ : ∃ content, fs₁ = fs.set temporary content)
    (ha : FileSystem.touches temporary a) (hp : fs₁.perform a = .ok fs₂)
    (hnext : Prog.Total (next ()) fs₂ (Replaced temporary target bytes fs)) :
    Prog.Total (Prog.bind (Prog.perform a wrap) next) fs₁ (Replaced temporary target bytes fs) := by
  refine .of_bind (R := fun o fs' => (o = .ok () → fs' = fs₂) ∧
    (o ≠ .ok () → Replaced temporary target bytes fs o fs')) ?_ ?_ ?_ ?_
  · refine total_perform hp (fun fs' ht => ?_) ⟨fun _ => rfl, fun h => absurd rfl h⟩
    have h' := FileSystem.torn_touches ha ht
    exact ⟨⟨fun h => absurd h crashed_ne, fun ho => .of_temporary ho h₁ h'⟩,
      fun e => ⟨fun h => absurd h error_ne, fun ho => .of_temporary ho h₁ h'⟩⟩
  · intro _ fs' h
    rw [h.1 rfl]
    exact hnext
  · exact fun e fs' h => h.2 error_ne
  · exact fun fs' h => h.2 crashed_ne

theorem total_writeAndRename (hne : temporary ≠ target) (hnew : fs.files temporary = none) :
    Prog.Total (writeAndRename temporary target bytes wrap) fs
      (Replaced temporary target bytes fs) := by
  have hwritten : (fs.set temporary (some bytes)).perform (.rename temporary target) =
      .ok ((fs.set target (some bytes)).set temporary none) := by
    simp only [FileSystem.perform, FileSystem.set_files_self]
    rw [FileSystem.set_comm fs hne, FileSystem.set_set]
  have hcreate : fs.perform (.createNew temporary) = .ok (fs.set temporary (some [])) := by
    simp [FileSystem.perform, hnew]
  have hwrite : (fs.set temporary (some [])).perform (.append temporary bytes) =
      .ok (fs.set temporary (some bytes)) := by
    simp [FileSystem.perform]
  refine total_step ⟨none, by rw [← hnew, FileSystem.set_self]⟩ rfl hcreate ?_
  refine total_step ⟨_, rfl⟩ rfl hwrite ?_
  refine total_step ⟨_, rfl⟩ trivial rfl ?_
  -- from the rename on the target is the new file
  refine .of_bind (R := fun o fs' => Replaced temporary target bytes fs o fs' ∧
    (o = .ok () → fs' = (fs.set target (some bytes)).set temporary none)) ?_ ?_ ?_ ?_
  · refine total_perform hwritten (fun fs' ht => ?_) ⟨.inr ⟨_, rfl⟩, fun _ => rfl⟩
    have h' : ∀ o : Outcome ε Unit, o ≠ .ok () → Replaced temporary target bytes fs o fs' := by
      intro o ho
      cases ht with
      | untouched => exact .inl ⟨ho, _, rfl⟩
      | finished h => rw [hwritten] at h; cases h; exact .inr ⟨_, rfl⟩
    exact ⟨⟨h' _ crashed_ne, fun h => absurd h crashed_ne⟩,
      fun e => ⟨h' _ error_ne, fun h => absurd h error_ne⟩⟩
  · intro _ fs' h
    obtain rfl := h.2 rfl
    refine total_perform rfl (fun fs'' ht => ?_) (.inr ⟨_, rfl⟩)
    obtain rfl := FileSystem.torn_sync ht
    exact ⟨.inr ⟨_, rfl⟩, fun _ => .inr ⟨_, rfl⟩⟩
  · exact fun e fs' h => h.1
  · exact fun fs' h => h.1

/-- **An atomic replacement**: whatever happens, the target is the old file or the new one, and
nothing else has changed but the temporary file. -/
theorem total_replaceFile (hne : temporary ≠ target) (hnew : fs.files temporary = none) :
    Prog.Total (replaceFile temporary target bytes wrap) fs
      (Replaced temporary target bytes fs) := by
  have hbody : Prog.Total (writeAndRename temporary target bytes wrap) fs
      (Replaced temporary target bytes fs) := total_writeAndRename hne hnew
  constructor
  · refine .of_tryCatch (hbody.1.mono fun o fs' h => ?_)
    cases o with
    | ok u => exact h
    | error e => exact ensures_discard h
    | crashed => exact h
  · obtain ⟨u, hu⟩ := hbody.2
    refine ⟨u, ?_⟩
    rw [replaceFile, Prog.exec_tryCatch]
    generalize Prog.exec (writeAndRename temporary target bytes wrap) fs = r at hu ⊢
    obtain ⟨o, fs'⟩ := r
    cases hu
    rfl

end Replace

end FileProg

end OpenAide.Library
