import Mathlib

/-!
# Programs that act on a fallible device

A small library for code that changes a device (a disk, a network) one action at a time, where
every action may be refused, may fail half way, and where the process may die between any two
actions.  Nothing here knows which device it is: `Device` says how an action changes the state
when it works and which states an interrupted action can leave behind.

* `Prog`: shallow programs over a state `σ`, with a `Monad` instance for `do` notation.
* `Prog.Run p s o s'`: some execution of `p` from `s` ends with outcome `o` in state `s'`.  An
  outcome is a value, an error, or `crashed`; every state between two actions is the final state
  of some crashed run.
* `Prog.exec`: the run in which the environment causes no fault.
* `Prog.Ensures`: every run ends in a state with the property, the total-over-crashes form of a
  Hoare triple.  `Prog.Ensures.of_bind` and `Prog.Ensures.of_tryCatch` are its sequencing rules.
* `Prog.Total`: the same, and the run without faults returns.
* `Prog.Respects`: every step is in a preorder, and so is every run.
-/

namespace OpenAide.Library

/-- How a run ends: with a value, with an error the program reports, or not at all. -/
inductive Outcome (ε α : Type) where
  | ok (a : α)
  | error (e : ε)
  | crashed
  deriving DecidableEq

theorem Outcome.error_ne {ε α : Type} {e : ε} {a : α} : (.error e : Outcome ε α) ≠ .ok a := nofun

theorem Outcome.crashed_ne {ε α : Type} {a : α} : (.crashed : Outcome ε α) ≠ .ok a := nofun

/-- A device: what an action does when the device lets it through (`perform`, which may refuse it
with a reason), which states an interrupted or failed action may leave (`torn`), and which
reasons the environment may give for a failure of its own (`fault`). -/
class Device (σ A κ : Type) where
  perform : A → σ → Except κ σ
  torn : A → σ → σ → Prop
  fault : κ → Prop
  torn_refl : ∀ a s, torn a s s

/-- Programs over a state `σ` and actions `A` that fail with a reason in `κ`; the program itself
fails with `ε`.  `abort` is the process giving up (a panic). -/
inductive Prog (σ A κ ε α : Type) where
  | pure (a : α)
  | throw (e : ε)
  | abort
  | read (k : σ → Prog σ A κ ε α)
  | modify (f : σ → σ) (k : Prog σ A κ ε α)
  | act (a : A) (ok : Prog σ A κ ε α) (err : κ → Prog σ A κ ε α)

namespace Prog

variable {σ A κ ε α β : Type}

/-! ## Sequencing -/

/-- Run `p`, then `f` on its value. -/
def bind : Prog σ A κ ε α → (α → Prog σ A κ ε β) → Prog σ A κ ε β
  | pure a, f => f a
  | throw e, _ => throw e
  | abort, _ => abort
  | read k, f => read fun s => bind (k s) f
  | modify g k, f => modify g (bind k f)
  | act a ok err, f => act a (bind ok f) fun e => bind (err e) f

instance : Monad (Prog σ A κ ε) where
  pure := Prog.pure
  bind := Prog.bind

/-- Run `p` and answer an error it reports with `h`. -/
def tryCatch : Prog σ A κ ε α → (ε → Prog σ A κ ε α) → Prog σ A κ ε α
  | pure a, _ => pure a
  | throw e, h => h e
  | abort, _ => abort
  | read k, h => read fun s => tryCatch (k s) h
  | modify g k, h => modify g (tryCatch k h)
  | act a ok err, h => act a (tryCatch ok h) fun e => tryCatch (err e) h

/-- The current state. -/
def get : Prog σ A κ ε σ := read pure

/-- One action; a failure becomes the error `wrap` makes of its reason. -/
def perform (a : A) (wrap : κ → ε) : Prog σ A κ ε Unit := act a (pure ()) fun e => throw (wrap e)

/-- A pure result, its error thrown. -/
def ofExcept : Except ε α → Prog σ A κ ε α
  | .ok a => pure a
  | .error e => throw e

@[simp] theorem pure_eq (a : α) : (Pure.pure a : Prog σ A κ ε α) = pure a := rfl

@[simp] theorem bind_eq (p : Prog σ A κ ε α) (f : α → Prog σ A κ ε β) : p >>= f = bind p f := rfl

@[simp] theorem bind_pure_left (a : α) (f : α → Prog σ A κ ε β) : bind (pure a) f = f a := rfl

@[simp] theorem bind_throw (e : ε) (f : α → Prog σ A κ ε β) : bind (throw e) f = throw e := rfl

@[simp] theorem bind_abort (f : α → Prog σ A κ ε β) : bind (abort : Prog σ A κ ε α) f = abort := rfl

/-! ## Runs -/

section Runs

variable [Device σ A κ]

/-- `Run p s o s'`: `p` started in `s` can end with `o` in `s'`.  The process can die in any state
it passes through (`crash`) and in any state an interrupted action leaves (`torn`); an action the
device would let through may still fail (`fault`). -/
inductive Run : Prog σ A κ ε α → σ → Outcome ε α → σ → Prop where
  | crash (p s) : Run p s .crashed s
  | pure (a s) : Run (.pure a) s (.ok a) s
  | throw (e s) : Run (.throw e) s (.error e) s
  | read {k s o s'} (h : Run (k s) s o s') : Run (.read k) s o s'
  | modify {f k s o s'} (h : Run k (f s) o s') : Run (.modify f k) s o s'
  | torn {a ok err s s'} (h : Device.torn κ a s s') : Run (.act a ok err) s .crashed s'
  | fault {a ok err s s₁ e o s'} (hf : Device.fault σ A e) (ht : Device.torn κ a s s₁)
      (h : Run (err e) s₁ o s') : Run (.act a ok err) s o s'
  | done {a ok err s s₁ o s'} (hp : (Device.perform a s : Except κ σ) = .ok s₁)
      (h : Run ok s₁ o s') : Run (.act a ok err) s o s'
  | refused {a ok err s e o s'} (hp : (Device.perform a s : Except κ σ) = .error e)
      (h : Run (err e) s o s') : Run (.act a ok err) s o s'

/-- The run without environment faults. -/
def exec : Prog σ A κ ε α → σ → Outcome ε α × σ
  | pure a, s => (.ok a, s)
  | throw e, s => (.error e, s)
  | abort, s => (.crashed, s)
  | read k, s => exec (k s) s
  | modify f k, s => exec k (f s)
  | act a ok err, s =>
      match (Device.perform a s : Except κ σ) with
      | .ok s₁ => exec ok s₁
      | .error e => exec (err e) s

variable (p : Prog σ A κ ε α)

theorem exec_run (s : σ) : Run p s (exec p s).1 (exec p s).2 := by
  induction p generalizing s with
  | pure a => exact .pure a s
  | throw e => exact .throw e s
  | abort => exact .crash _ s
  | read k ih => exact .read (ih s s)
  | modify f k ih => exact .modify (ih (f s))
  | act a ok err ihok iherr =>
    simp only [exec]
    cases h : (Device.perform a s : Except κ σ) with
    | ok s₁ => exact .done h (ihok s₁)
    | error e => exact .refused h (iherr e s)

@[simp] theorem exec_bind (f : α → Prog σ A κ ε β) (s : σ) :
    exec (bind p f) s =
      match exec p s with
      | (.ok a, s') => exec (f a) s'
      | (.error e, s') => (.error e, s')
      | (.crashed, s') => (.crashed, s') := by
  induction p generalizing s with
  | pure a => rfl
  | throw e => rfl
  | abort => rfl
  | read k ih => exact ih s s
  | modify g k ih => exact ih (g s)
  | act a ok err ihok iherr =>
    simp only [bind, exec]
    cases (Device.perform a s : Except κ σ) with
    | ok s₁ => exact ihok s₁
    | error e => exact iherr e s

@[simp] theorem exec_tryCatch (h : ε → Prog σ A κ ε α) (s : σ) :
    exec (tryCatch p h) s =
      match exec p s with
      | (.ok a, s') => (.ok a, s')
      | (.error e, s') => exec (h e) s'
      | (.crashed, s') => (.crashed, s') := by
  induction p generalizing s with
  | pure a => rfl
  | throw e => rfl
  | abort => rfl
  | read k ih => exact ih s s
  | modify g k ih => exact ih (g s)
  | act a ok err ihok iherr =>
    simp only [tryCatch, exec]
    cases (Device.perform a s : Except κ σ) with
    | ok s₁ => exact ihok s₁
    | error e => exact iherr e s

@[simp] theorem exec_pure (a : α) (s : σ) : exec (pure a : Prog σ A κ ε α) s = (.ok a, s) := rfl

@[simp] theorem exec_throw (e : ε) (s : σ) :
    exec (throw e : Prog σ A κ ε α) s = (.error e, s) := rfl

@[simp] theorem exec_get (s : σ) : exec (get : Prog σ A κ ε σ) s = (.ok s, s) := rfl

@[simp] theorem exec_read (k : σ → Prog σ A κ ε α) (s : σ) : exec (read k) s = exec (k s) s := rfl

/-! ## What every run ensures -/

/-- Every run of `p` from `s`, whatever faults and crashes it meets, ends as `Q` says. -/
def Ensures (p : Prog σ A κ ε α) (s : σ) (Q : Outcome ε α → σ → Prop) : Prop :=
  ∀ o s', Run p s o s' → Q o s'

/-- What the first part of a sequence has to ensure for the whole to ensure `Q`. -/
def bindPost (f : α → Prog σ A κ ε β) (Q : Outcome ε β → σ → Prop) : Outcome ε α → σ → Prop
  | .ok a, s => Ensures (f a) s Q
  | .error e, s => Q (.error e) s
  | .crashed, s => Q .crashed s

/-- What a guarded program has to ensure for it and its handler to ensure `Q`. -/
def catchPost (h : ε → Prog σ A κ ε α) (Q : Outcome ε α → σ → Prop) : Outcome ε α → σ → Prop
  | .ok a, s => Q (.ok a) s
  | .error e, s => Ensures (h e) s Q
  | .crashed, s => Q .crashed s

namespace Ensures

variable {p : Prog σ A κ ε α} {s : σ} {Q R : Outcome ε α → σ → Prop}

theorem mono (h : Ensures p s Q) (hQR : ∀ o s', Q o s' → R o s') : Ensures p s R :=
  fun o s' hr => hQR o s' (h o s' hr)

theorem and (hQ : Ensures p s Q) (hR : Ensures p s R) : Ensures p s fun o s' => Q o s' ∧ R o s' :=
  fun o s' hr => ⟨hQ o s' hr, hR o s' hr⟩

theorem of_pure {a : α} (hok : Q (.ok a) s) (hcrash : Q .crashed s) :
    Ensures (.pure a : Prog σ A κ ε α) s Q := by
  intro o s' h
  cases h with
  | crash => exact hcrash
  | pure => exact hok

theorem of_throw {e : ε} (herr : Q (.error e) s) (hcrash : Q .crashed s) :
    Ensures (.throw e : Prog σ A κ ε α) s Q := by
  intro o s' h
  cases h with
  | crash => exact hcrash
  | throw => exact herr

theorem of_abort (hcrash : Q .crashed s) : Ensures (.abort : Prog σ A κ ε α) s Q := by
  intro o s' h
  cases h with
  | crash => exact hcrash

theorem of_read {k : σ → Prog σ A κ ε α} (h : Ensures (k s) s Q) : Ensures (.read k) s Q := by
  intro o s' hr
  cases hr with
  | crash => exact h _ _ (.crash _ _)
  | read hr => exact h _ _ hr

theorem of_modify {f : σ → σ} {k : Prog σ A κ ε α} (hcrash : Q .crashed s)
    (h : Ensures k (f s) Q) : Ensures (.modify f k) s Q := by
  intro o s' hr
  cases hr with
  | crash => exact hcrash
  | modify hr => exact h _ _ hr

theorem of_act {a : A} {ok : Prog σ A κ ε α} {err : κ → Prog σ A κ ε α}
    (htorn : ∀ s', Device.torn κ a s s' →
      Q .crashed s' ∧ ∀ e, Device.fault σ A e → Ensures (err e) s' Q)
    (hok : ∀ s₁, (Device.perform a s : Except κ σ) = .ok s₁ → Ensures ok s₁ Q)
    (herr : ∀ e, (Device.perform a s : Except κ σ) = .error e → Ensures (err e) s Q) :
    Ensures (.act a ok err) s Q := by
  intro o s' hr
  cases hr with
  | crash => exact (htorn s (Device.torn_refl a s)).1
  | torn ht => exact (htorn s' ht).1
  | fault hf ht hr => exact (htorn _ ht).2 _ hf _ _ hr
  | done hp hr => exact hok _ hp _ _ hr
  | refused hp hr => exact herr _ hp _ _ hr

/-- **Sequencing.** -/
theorem of_bind {f : α → Prog σ A κ ε β} {Q : Outcome ε β → σ → Prop}
    (h : Ensures p s (bindPost f Q)) : Ensures (p.bind f) s Q := by
  induction p generalizing s with
  | pure a => exact h _ _ (.pure a s)
  | throw e => exact of_throw (h _ _ (.throw e s)) (h _ _ (.crash _ s))
  | abort => exact of_abort (h _ _ (.crash _ s))
  | read k ih => exact of_read (ih s fun o s' hr => h o s' (.read hr))
  | modify g k ih => exact of_modify (h _ _ (.crash _ s)) (ih fun o s' hr => h o s' (.modify hr))
  | act a ok err ihok iherr =>
    refine of_act (fun s' ht => ⟨h _ _ (.torn ht), fun e hf => ?_⟩) (fun s₁ hp => ?_)
      fun e hp => ?_
    · exact iherr e fun o s₂ hr => h o s₂ (.fault hf ht hr)
    · exact ihok fun o s₂ hr => h o s₂ (.done hp hr)
    · exact iherr e fun o s₂ hr => h o s₂ (.refused hp hr)

theorem of_bind_never {f : α → Prog σ A κ ε β}
    (h : ∀ a s, Ensures (f a) s fun o _ => ∀ b, o ≠ .ok b) :
    Ensures (p.bind f) s fun o _ => ∀ b, o ≠ .ok b := by
  refine of_bind fun o s' _ => ?_
  cases o with
  | ok a => exact h a s'
  | error e => exact fun b hb => nomatch hb
  | crashed => exact fun b hb => nomatch hb

/-- **Handling errors.** -/
theorem of_tryCatch {hd : ε → Prog σ A κ ε α} (h : Ensures p s (catchPost hd Q)) :
    Ensures (p.tryCatch hd) s Q := by
  induction p generalizing s with
  | pure a => exact of_pure (h _ _ (.pure a s)) (h _ _ (.crash _ s))
  | throw e => exact h _ _ (.throw e s)
  | abort => exact of_abort (h _ _ (.crash _ s))
  | read k ih => exact of_read (ih s fun o s' hr => h o s' (.read hr))
  | modify g k ih => exact of_modify (h _ _ (.crash _ s)) (ih fun o s' hr => h o s' (.modify hr))
  | act a ok err ihok iherr =>
    refine of_act (fun s' ht => ⟨h _ _ (.torn ht), fun e hf => ?_⟩) (fun s₁ hp => ?_)
      fun e hp => ?_
    · exact iherr e fun o s₂ hr => h o s₂ (.fault hf ht hr)
    · exact ihok fun o s₂ hr => h o s₂ (.done hp hr)
    · exact iherr e fun o s₂ hr => h o s₂ (.refused hp hr)

theorem of_ofExcept {x : Except ε α} (hok : ∀ a, x = .ok a → Q (.ok a) s)
    (herr : ∀ e, x = .error e → Q (.error e) s) (hcrash : Q .crashed s) :
    Ensures (Prog.ofExcept x : Prog σ A κ ε α) s Q := by
  cases x with
  | ok a => exact of_pure (hok a rfl) hcrash
  | error e => exact of_throw (herr e rfl) hcrash

end Ensures

/-- Every run ends as `Q` says, and the one without faults returns a value. -/
def Total (p : Prog σ A κ ε α) (s : σ) (Q : Outcome ε α → σ → Prop) : Prop :=
  Ensures p s Q ∧ ∃ a, (exec p s).1 = .ok a

namespace Total

variable {p : Prog σ A κ ε α} {s : σ} {Q R : Outcome ε α → σ → Prop}

theorem mono (h : Total p s Q) (hQR : ∀ o s', Q o s' → R o s') : Total p s R :=
  ⟨h.1.mono hQR, h.2⟩

theorem of_pure {a : α} (hok : Q (.ok a) s) (hcrash : Q .crashed s) :
    Total (.pure a : Prog σ A κ ε α) s Q :=
  ⟨.of_pure hok hcrash, a, rfl⟩

theorem of_read {k : σ → Prog σ A κ ε α} (h : Total (k s) s Q) : Total (.read k) s Q :=
  ⟨.of_read h.1, h.2⟩

theorem of_act {a : A} {ok : Prog σ A κ ε α} {err : κ → Prog σ A κ ε α} {s₁ : σ}
    (hp : (Device.perform a s : Except κ σ) = .ok s₁)
    (htorn : ∀ s', Device.torn κ a s s' →
      Q .crashed s' ∧ ∀ e, Device.fault σ A e → Ensures (err e) s' Q)
    (hok : Total ok s₁ Q) : Total (.act a ok err) s Q := by
  refine ⟨.of_act htorn (fun s' h => ?_) fun e h => ?_, ?_⟩
  · obtain rfl := Except.ok.inj (hp.symm.trans h)
    exact hok.1
  · cases hp.symm.trans h
  · obtain ⟨b, hb⟩ := hok.2
    refine ⟨b, ?_⟩
    simp only [exec, hp]
    exact hb

theorem of_act_refused {a : A} {ok : Prog σ A κ ε α} {err : κ → Prog σ A κ ε α} {e : κ}
    (hp : (Device.perform a s : Except κ σ) = .error e)
    (htorn : ∀ s', Device.torn κ a s s' →
      Q .crashed s' ∧ ∀ e, Device.fault σ A e → Ensures (err e) s' Q)
    (herr : Total (err e) s Q) : Total (.act a ok err) s Q := by
  refine ⟨.of_act htorn (fun s' h => ?_) fun e' h => ?_, ?_⟩
  · cases hp.symm.trans h
  · obtain rfl := Except.error.inj (hp.symm.trans h)
    exact herr.1
  · obtain ⟨b, hb⟩ := herr.2
    refine ⟨b, ?_⟩
    simp only [exec, hp]
    exact hb

/-- **Sequencing**, with what the first part leaves in between. -/
theorem of_bind {f : α → Prog σ A κ ε β} {Q : Outcome ε β → σ → Prop} (hp : Total p s R)
    (hok : ∀ a s', R (.ok a) s' → Total (f a) s' Q)
    (herr : ∀ e s', R (.error e) s' → Q (.error e) s')
    (hcrash : ∀ s', R .crashed s' → Q .crashed s') : Total (p.bind f) s Q := by
  constructor
  · refine .of_bind fun o s' hr => ?_
    have hR := hp.1 o s' hr
    cases o with
    | ok a => exact (hok a s' hR).1
    | error e => exact herr e s' hR
    | crashed => exact hcrash s' hR
  · obtain ⟨a, ha⟩ := hp.2
    have hR := hp.1 _ _ (exec_run p s)
    rw [ha] at hR
    obtain ⟨b, hb⟩ := (hok a _ hR).2
    refine ⟨b, ?_⟩
    rw [exec_bind, ← hb]
    generalize exec p s = r at ha ⊢
    obtain ⟨o, s'⟩ := r
    cases ha
    rfl

theorem exec_ok (h : Total p s Q) : ∃ a s', exec p s = (.ok a, s') ∧ Q (.ok a) s' := by
  obtain ⟨a, ha⟩ := h.2
  have hQ := h.1 _ _ (exec_run p s)
  rw [ha] at hQ
  exact ⟨a, _, Prod.ext ha rfl, hQ⟩

end Total

/-- `S` if the run was cut short by an error or a crash, `T` of the value if it returned one. -/
def Post (S : σ → Prop) (T : α → σ → Prop) : Outcome ε α → σ → Prop
  | .ok a, s => T a s
  | .error _, s => S s
  | .crashed, s => S s

section Post

variable {p : Prog σ A κ ε α} {f : α → Prog σ A κ ε β} {s : σ} {S S' : σ → Prop}
  {T T' : α → σ → Prop} {U : β → σ → Prop}

theorem Post.mono {o : Outcome ε α} (h : Post S T o s) (hS : ∀ s, S s → S' s)
    (hT : ∀ a s, T a s → T' a s) : Post S' T' o s := by
  cases o with
  | ok a => exact hT a s h
  | error e => exact hS s h
  | crashed => exact hS s h

theorem Post.of {o : Outcome ε α} (hS : S s) (hT : ∀ a, o = .ok a → T a s) : Post S T o s := by
  cases o with
  | ok a => exact hT a rfl
  | error e => exact hS
  | crashed => exact hS

theorem Post.cases {o : Outcome ε α} (h : Post S T o s) :
    (∃ a, o = .ok a ∧ T a s) ∨ (∀ a, o ≠ .ok a) ∧ S s := by
  cases o with
  | ok a => exact .inl ⟨a, rfl, h⟩
  | error e => exact .inr ⟨fun _ => Outcome.error_ne, h⟩
  | crashed => exact .inr ⟨fun _ => Outcome.crashed_ne, h⟩

theorem Ensures.bind_post (hp : Ensures p s (Post S T))
    (hf : ∀ a s', T a s' → Ensures (f a) s' (Post S U)) : Ensures (p.bind f) s (Post S U) := by
  refine .of_bind fun o s' hr => ?_
  have h := hp o s' hr
  cases o with
  | ok a => exact hf a s' h
  | error e => exact h
  | crashed => exact h

theorem Total.bind_post (hp : Total p s (Post S T))
    (hf : ∀ a s', T a s' → Total (f a) s' (Post S U)) : Total (p.bind f) s (Post S U) :=
  .of_bind hp hf (fun _ _ h => h) fun _ h => h

end Post

end Runs

/-! ## Relations every step respects

A syntactic frame rule: if every action and every update a program can make, from any state, stays
inside a reflexive and transitive relation, so does every run. -/

section Respects

variable [Device σ A κ]

/-- Every single step of the program, taken from any state, is in `R`. -/
def Respects (R : σ → σ → Prop) : Prog σ A κ ε α → Prop
  | pure _ => True
  | throw _ => True
  | abort => True
  | read k => ∀ s, Respects R (k s)
  | modify f k => (∀ s, R s (f s)) ∧ Respects R k
  | act a ok err =>
      (∀ s s', Device.torn κ a s s' ∨ (Device.perform a s : Except κ σ) = .ok s' → R s s') ∧
        Respects R ok ∧ ∀ e, Respects R (err e)

namespace Respects

variable {R : σ → σ → Prop}

theorem bind {p : Prog σ A κ ε α} {f : α → Prog σ A κ ε β} (hp : Respects R p)
    (hf : ∀ a, Respects R (f a)) : Respects R (p.bind f) := by
  induction p with
  | pure a => exact hf a
  | throw e => trivial
  | abort => trivial
  | read k ih => exact fun s => ih s (hp s)
  | modify g k ih => exact ⟨hp.1, ih hp.2⟩
  | act a ok err ihok iherr => exact ⟨hp.1, ihok hp.2.1, fun e => iherr e (hp.2.2 e)⟩

theorem ofExcept (x : Except ε α) : Respects R (Prog.ofExcept x : Prog σ A κ ε α) := by
  cases x <;> trivial

theorem get_bind {f : σ → Prog σ A κ ε β} (hf : ∀ s, Respects R (f s)) :
    Respects R (Prog.get.bind f) := hf

/-- **Every run of a program that respects a preorder stays in it.** -/
theorem ensures {p : Prog σ A κ ε α} (hp : Respects R p) (hrefl : ∀ s, R s s)
    (htrans : ∀ {a b c}, R a b → R b c → R a c) (s : σ) : Ensures p s fun _ s' => R s s' := by
  intro o s' hr
  induction hr with
  | crash p s => exact hrefl s
  | pure a s => exact hrefl s
  | throw e s => exact hrefl s
  | read h ih => exact ih (hp _)
  | modify h ih => exact htrans (hp.1 _) (ih hp.2)
  | torn ht => exact hp.1 _ _ (.inl ht)
  | fault hf ht h ih => exact htrans (hp.1 _ _ (.inl ht)) (ih (hp.2.2 _))
  | done hd h ih => exact htrans (hp.1 _ _ (.inr hd)) (ih hp.2.1)
  | refused hd h ih => exact ih (hp.2.2 _)

end Respects

end Respects

end Prog

end OpenAide.Library
