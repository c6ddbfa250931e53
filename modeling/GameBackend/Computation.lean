import Mathlib.Logic.Function.Basic
import Mathlib.Data.List.Basic

/-!
# Programs over a command interface

The general layer under the services. Nothing here names the game backend.

* `Prog C R α` — **programs**: the free monad over a command interface `C`
  whose command `c` is answered by an `R c`, with one more leaf for an uncaught
  exception. A program says which commands a routine sends and how it goes on
  for every answer; what a command does is left to the interpreter.
* `Follows` — **protocol conformance**: a phase relation `Adv` allows some
  commands in some phases and says which phase comes next. A program follows
  the protocol from a phase when every command it can ever send is allowed
  there, whatever plausible answers it gets.
* `Path` — the phases a recorded trail of calls leads through.
* `Prog.run` — a program run alone by an interpreter; `Prog.Ensures` is total
  correctness of such runs, with a rule for sequences and one for programs that
  follow a protocol.
* `Prog.runFor` — a program that is interrupted after some commands; `Prog.Secures`
  adds to `Prog.Ensures` what holds in front of every command.
* `Reach` — the states of a labelled transition system that runs reach, with
  one induction rule for invariants and one way to replay a list of labels.
-/

namespace GameBackend

universe u

/-! ## Programs -/

/-- A program over commands `C`, where command `c` is answered by an `R c`.

* `ret a` — return `a`.
* `throw` — stop with an exception nobody catches.
* `call c k` — send `c`, go on with `k` applied to the answer. -/
inductive Prog (C : Type) (R : C → Type) (α : Type u) : Type u where
  /-- return a value -/
  | ret : α → Prog C R α
  /-- raise an exception that no handler catches -/
  | throw : Prog C R α
  /-- send a command and continue with its answer -/
  | call : (c : C) → (R c → Prog C R α) → Prog C R α

namespace Prog

variable {C : Type} {R : C → Type} {α β : Type u}

/-- Graft a continuation onto every `ret` leaf; an exception skips it. -/
protected def bind : Prog C R α → (α → Prog C R β) → Prog C R β
  | ret a, f => f a
  | throw, _ => throw
  | call c k, f => call c fun r => (k r).bind f

instance : Monad (Prog C R) where
  pure := ret
  bind := Prog.bind

/-- Send one command and return its answer. -/
def send {C : Type} {R : C → Type} (c : C) : Prog C R (R c) := call c ret

/-- The value of an `Option`, or an exception when there is none. -/
def ofOption : Option α → Prog C R α
  | some a => ret a
  | none => throw

@[simp] theorem pure_eq (a : α) : (pure a : Prog C R α) = ret a := rfl

@[simp] theorem ret_bind (a : α) (f : α → Prog C R β) : ret a >>= f = f a := rfl

@[simp] theorem throw_bind (f : α → Prog C R β) : (throw : Prog C R α) >>= f = throw := rfl

@[simp] theorem call_bind (c : C) (k : R c → Prog C R α) (f : α → Prog C R β) :
    call c k >>= f = call c fun r => k r >>= f := rfl

theorem bind_assoc {γ : Type u} (f : α → Prog C R β) (g : β → Prog C R γ) :
    ∀ m : Prog C R α, m >>= f >>= g = m >>= fun a => f a >>= g
  | ret _ => rfl
  | throw => rfl
  | call c k => by
    rw [call_bind, call_bind, call_bind]
    exact congrArg _ (funext fun r => bind_assoc f g (k r))

theorem bind_ret : ∀ m : Prog C R α, m >>= ret = m
  | ret _ => rfl
  | throw => rfl
  | call c k => congrArg (call c) (funext fun r => bind_ret (k r))

@[simp] theorem ofOption_some (a : α) : (ofOption (some a) : Prog C R α) = ret a := rfl

@[simp] theorem ofOption_none : (ofOption none : Prog C R α) = throw := rfl

section Implement

variable {D : Type} {S : D → Type} {α β : Type}

/-- Carry out every command by a program over another interface. -/
def implement (h : (c : C) → Prog D S (R c)) : Prog C R α → Prog D S α
  | ret a => ret a
  | throw => throw
  | call c k => h c >>= fun r => (k r).implement h

theorem implement_send (h : (c : C) → Prog D S (R c)) (c : C) : (send c).implement h = h c :=
  bind_ret (h c)

theorem implement_bind (h : (c : C) → Prog D S (R c)) (f : α → Prog C R β) :
    ∀ m : Prog C R α, (m >>= f).implement h = m.implement h >>= fun a => (f a).implement h
  | ret _ => rfl
  | throw => rfl
  | call c k => by
    have hk : (fun r => (k r >>= f).implement h) =
        fun r => (k r).implement h >>= fun a => (f a).implement h :=
      funext fun r => implement_bind h f (k r)
    rw [call_bind, implement, implement, hk, bind_assoc]

end Implement

end Prog

/-! ## Protocols -/

section Protocol

variable {C : Type} {R : C → Type} {Φ : Type}

/-- `Follows Ok Adv E Q m φ`: started in phase `φ`, the program `m` only sends
commands that `Adv` allows, whatever answers in `Ok` come back; when it returns
`a` in phase `φ'` then `Q a φ'`, when it throws in phase `φ'` then `E φ'`. The next
phase may be chosen with the answer in view. -/
def Follows (Ok : (c : C) → R c → Prop) (Adv : Φ → (c : C) → R c → Φ → Prop) (E : Φ → Prop)
    {α : Type u} (Q : α → Φ → Prop) : Prog C R α → Φ → Prop
  | .ret a, φ => Q a φ
  | .throw, φ => E φ
  | .call c k, φ => ∀ r, Ok c r → ∃ φ', Adv φ c r φ' ∧ Follows Ok Adv E Q (k r) φ'

variable {Ok : (c : C) → R c → Prop} {Adv : Φ → (c : C) → R c → Φ → Prop} {E : Φ → Prop}
variable {α β : Type u}

@[simp] theorem follows_ret {Q : α → Φ → Prop} {a : α} {φ : Φ} :
    Follows Ok Adv E Q (Prog.ret a) φ ↔ Q a φ := Iff.rfl

@[simp] theorem follows_throw {Q : α → Φ → Prop} {φ : Φ} :
    Follows Ok Adv E Q Prog.throw φ ↔ E φ := Iff.rfl

theorem follows_call {Q : α → Φ → Prop} {c : C} {k : R c → Prog C R α} {φ : Φ} :
    Follows Ok Adv E Q (Prog.call c k) φ ↔
      ∀ r, Ok c r → ∃ φ', Adv φ c r φ' ∧ Follows Ok Adv E Q (k r) φ' := Iff.rfl

@[simp] theorem follows_ofOption {Q : α → Φ → Prop} {o : Option α} {φ : Φ} :
    Follows Ok Adv E Q (Prog.ofOption o) φ ↔ (∀ a, o = some a → Q a φ) ∧ (o = none → E φ) := by
  cases o with
  | none => simp
  | some a => simp

/-- Conformance is monotone in the postcondition. -/
theorem Follows.mono {Q Q' : α → Φ → Prop} (hQ : ∀ a φ, Q a φ → Q' a φ) :
    ∀ {m : Prog C R α} {φ : Φ}, Follows Ok Adv E Q m φ → Follows Ok Adv E Q' m φ := by
  intro m
  induction m with
  | ret a => exact fun h => hQ _ _ h
  | throw => exact fun h => h
  | call c k ih =>
    intro φ h r hr
    obtain ⟨φ', hadv, hk⟩ := h r hr
    exact ⟨φ', hadv, ih r hk⟩

/-- Conformance of a sequence: the first part leads to phases from which the
second part conforms. -/
theorem follows_bind {Q : β → Φ → Prop} {f : α → Prog C R β} :
    ∀ {m : Prog C R α} {φ : Φ},
      Follows Ok Adv E Q (m >>= f) φ ↔
        Follows Ok Adv E (fun a φ' => Follows Ok Adv E Q (f a) φ') m φ := by
  intro m
  induction m with
  | ret a => exact fun {φ} => Iff.rfl
  | throw => exact fun {φ} => Iff.rfl
  | call c k ih =>
    intro φ
    rw [Prog.call_bind, follows_call, follows_call]
    constructor
    · intro h r hr
      obtain ⟨φ', hadv, hk⟩ := h r hr
      exact ⟨φ', hadv, (ih r).mp hk⟩
    · intro h r hr
      obtain ⟨φ', hadv, hk⟩ := h r hr
      exact ⟨φ', hadv, (ih r).mpr hk⟩

/-- The common way to use `follows_bind`: a specification of the first part and
conformance of the rest in every phase it can end in. -/
theorem Follows.bind {P : α → Φ → Prop} {Q : β → Φ → Prop} {m : Prog C R α}
    {f : α → Prog C R β} {φ : Φ} (hm : Follows Ok Adv E P m φ)
    (hf : ∀ a φ', P a φ' → Follows Ok Adv E Q (f a) φ') :
    Follows Ok Adv E Q (m >>= f) φ :=
  follows_bind.mpr (hm.mono hf)

/-- A command together with the answer it got. -/
abbrev Call (C : Type) (R : C → Type) : Type := Σ c : C, R c

/-- The phases that a trail of calls (newest first) can lead to from `φ₀`. -/
inductive Path (Adv : Φ → (c : C) → R c → Φ → Prop) (φ₀ : Φ) : List (Call C R) → Φ → Prop where
  /-- nothing sent yet -/
  | nil : Path Adv φ₀ [] φ₀
  /-- one more call -/
  | cons {trail : List (Call C R)} {φ φ' : Φ} {c : C} {r : R c} :
      Path Adv φ₀ trail φ → Adv φ c r φ' → Path Adv φ₀ (⟨c, r⟩ :: trail) φ'

/-- A program that follows two protocols follows both at once. -/
theorem Follows.both {Ok₁ Ok₂ : (c : C) → R c → Prop} {Φ₁ Φ₂ : Type}
    {Adv₁ : Φ₁ → (c : C) → R c → Φ₁ → Prop} {Adv₂ : Φ₂ → (c : C) → R c → Φ₂ → Prop}
    {E₁ : Φ₁ → Prop} {E₂ : Φ₂ → Prop} {Q₁ : α → Φ₁ → Prop} {Q₂ : α → Φ₂ → Prop} :
    ∀ {m : Prog C R α} {φ₁ : Φ₁} {φ₂ : Φ₂}, Follows Ok₁ Adv₁ E₁ Q₁ m φ₁ →
      Follows Ok₂ Adv₂ E₂ Q₂ m φ₂ →
      Follows (fun c r => Ok₁ c r ∧ Ok₂ c r)
        (fun φ c r φ' => Adv₁ φ.1 c r φ'.1 ∧ Adv₂ φ.2 c r φ'.2) (fun φ => E₁ φ.1 ∧ E₂ φ.2)
        (fun a φ => Q₁ a φ.1 ∧ Q₂ a φ.2) m (φ₁, φ₂) := by
  intro m
  induction m with
  | ret a => exact fun h₁ h₂ => ⟨h₁, h₂⟩
  | throw => exact fun h₁ h₂ => ⟨h₁, h₂⟩
  | call c k ih =>
    intro φ₁ φ₂ h₁ h₂ r hr
    obtain ⟨ψ₁, hadv₁, hk₁⟩ := h₁ r hr.1
    obtain ⟨ψ₂, hadv₂, hk₂⟩ := h₂ r hr.2
    exact ⟨(ψ₁, ψ₂), ⟨hadv₁, hadv₂⟩, ih r hk₁ hk₂⟩

end Protocol

/-! ## Programs run alone -/

section Alone

variable {C : Type} {R : C → Type} {S X Φ : Type} {α : Type u}

/-- Run a program: `exec s x c` is what `c` answers and leads to in the state `s`
under the circumstances `x`; the circumstances of the commands come one after the
other. No result when a command has none or an exception is thrown. -/
def Prog.run (exec : S → X → (c : C) → Option (R c × S)) :
    Prog C R α → (ℕ → X) → S → Option (α × S)
  | .ret a, _, s => some (a, s)
  | .throw, _, _ => none
  | .call c k, x, s => (exec s (x 0) c).bind fun rs => (k rs.1).run exec (fun n => x (n + 1)) rs.2

variable {exec : S → X → (c : C) → Option (R c × S)} {β : Type u}

/-- `m.Ensures exec Q s`: run from `s` under any circumstances, every command of `m`
gets an answer, no exception is thrown, and the result and the last state are in
`Q`. -/
def Prog.Ensures (exec : S → X → (c : C) → Option (R c × S)) (Q : α → S → Prop) :
    Prog C R α → S → Prop
  | .ret a, s => Q a s
  | .throw, _ => False
  | .call c k, s => ∀ x, ∃ r s', exec s x c = some (r, s') ∧ (k r).Ensures exec Q s'

/-- Circumstances may be restricted before or while the program runs. -/
theorem Prog.run_comp {Y : Type} (g : Y → X) :
    ∀ (m : Prog C R α) (y : ℕ → Y) (s : S),
      m.run exec (fun n => g (y n)) s = m.run (fun s y c => exec s (g y) c) y s
  | .ret _, _, _ => rfl
  | .throw, _, _ => rfl
  | .call c k, y, s => by
    rw [Prog.run, Prog.run]
    congr 1
    exact funext fun rs => (k rs.1).run_comp g (fun n => y (n + 1)) rs.2

/-- A program that ensures something comes to an end. -/
theorem Prog.Ensures.run {Q : α → S → Prop} :
    ∀ {m : Prog C R α} {s : S}, m.Ensures exec Q s → ∀ x : ℕ → X,
      ∃ a s', m.run exec x s = some (a, s') ∧ Q a s' := by
  intro m
  induction m with
  | ret a => exact fun h x => ⟨a, _, rfl, h⟩
  | throw => exact fun h => h.elim
  | call c k ih =>
    intro s h x
    obtain ⟨r, s', hs, hk⟩ := h (x 0)
    obtain ⟨a, s'', hrun, hQ⟩ := ih r hk fun n => x (n + 1)
    exact ⟨a, s'', by simp [Prog.run, hs, hrun], hQ⟩

/-- A weaker postcondition. -/
theorem Prog.Ensures.mono {Q Q' : α → S → Prop} (hQ : ∀ a s, Q a s → Q' a s) :
    ∀ {m : Prog C R α} {s : S}, m.Ensures exec Q s → m.Ensures exec Q' s
  | .ret _, _, h => hQ _ _ h
  | .throw, _, h => h
  | .call _ _, _, h => fun x =>
    let ⟨r, s', hs, hk⟩ := h x
    ⟨r, s', hs, hk.mono hQ⟩

/-- The rule for sequences. -/
theorem Prog.Ensures.bind {P : α → S → Prop} {Q : β → S → Prop} {f : α → Prog C R β} :
    ∀ {m : Prog C R α} {s : S}, m.Ensures exec P s →
      (∀ a s', P a s' → (f a).Ensures exec Q s') → (m >>= f).Ensures exec Q s := by
  intro m
  induction m with
  | ret a => exact fun h hf => hf a _ h
  | throw => exact fun h _ => h
  | call c k ih =>
    intro s h hf x
    obtain ⟨r, s', hs, hk⟩ := h x
    exact ⟨r, s', hs, ih r hk hf⟩

/-- `m.Yields exec x stuck Q n s`: run from `s`, with `x n` as the circumstances of its
first command, `m` returns an `a` after the `n'`th command in an `s'` with `Q a n' s'`;
where it throws or waits for an answer instead, `stuck` holds. With `True` for `stuck`
this is partial correctness, with `False` it is total correctness. -/
def Prog.Yields (exec : S → X → (c : C) → Option (R c × S)) (x : ℕ → X) (stuck : Prop)
    (Q : α → ℕ → S → Prop) : Prog C R α → ℕ → S → Prop
  | .ret a, n, s => Q a n s
  | .throw, _, _ => stuck
  | .call c k, n, s => (exec s (x n) c = none → stuck) ∧
    ∀ r s', exec s (x n) c = some (r, s') → (k r).Yields exec x stuck Q (n + 1) s'

section Yields

variable {x : ℕ → X} {stuck : Prop} {Q : α → ℕ → S → Prop}

theorem Prog.Yields.run :
    ∀ {m : Prog C R α} {n : ℕ} {s s' : S} {a : α}, m.Yields exec x stuck Q n s →
      m.run exec (fun j => x (n + j)) s = some (a, s') → ∃ n', Q a n' s' := by
  intro m
  induction m with
  | ret a =>
    intro n s s' b h hrun
    obtain ⟨rfl, rfl⟩ := Prod.mk.inj (Option.some.inj hrun)
    exact ⟨n, h⟩
  | throw => exact fun _ hrun => nomatch hrun
  | call c k ih =>
    intro n s s' a h hrun
    obtain ⟨⟨r, t⟩, hs, hrest⟩ := Option.bind_eq_some_iff.mp hrun
    have hshift : (fun j => x (n + (j + 1))) = fun j => x (n + 1 + j) :=
      funext fun j => congrArg x (by omega)
    rw [hshift] at hrest
    exact ih r (h.2 r t hs) hrest

/-- A program that cannot get stuck returns. -/
theorem Prog.Yields.returns (hstuck : ¬stuck) :
    ∀ {m : Prog C R α} {n : ℕ} {s : S}, m.Yields exec x stuck Q n s →
      ∃ a s', m.run exec (fun j => x (n + j)) s = some (a, s') := by
  intro m
  induction m with
  | ret a => exact fun _ => ⟨a, _, rfl⟩
  | throw => exact fun h => absurd h hstuck
  | call c k ih =>
    intro n s h
    rcases hs : exec s (x n) c with _ | ⟨r, t⟩
    · exact absurd (h.1 hs) hstuck
    · obtain ⟨a, s', hrun⟩ := ih r (h.2 r t hs)
      have hshift : (fun j => x (n + (j + 1))) = fun j => x (n + 1 + j) :=
        funext fun j => congrArg x (by omega)
      refine ⟨a, s', ?_⟩
      rw [Prog.run, Nat.add_zero, hs, Option.bind_some, hshift]
      exact hrun

theorem Prog.Yields.mono {Q' : α → ℕ → S → Prop} (hQ : ∀ a n s, Q a n s → Q' a n s) :
    ∀ {m : Prog C R α} {n : ℕ} {s : S}, m.Yields exec x stuck Q n s →
      m.Yields exec x stuck Q' n s
  | .ret _, _, _, h => hQ _ _ _ h
  | .throw, _, _, h => h
  | .call _ _, _, _, h => ⟨h.1, fun r s' hs => (h.2 r s' hs).mono hQ⟩

theorem Prog.Yields.and {Q' : α → ℕ → S → Prop} :
    ∀ {m : Prog C R α} {n : ℕ} {s : S}, m.Yields exec x stuck Q n s →
      m.Yields exec x stuck Q' n s →
      m.Yields exec x stuck (fun a n s => Q a n s ∧ Q' a n s) n s
  | .ret _, _, _, h, h' => ⟨h, h'⟩
  | .throw, _, _, h, _ => h
  | .call _ _, _, _, h, h' => ⟨h.1, fun r s' hs => (h.2 r s' hs).and (h'.2 r s' hs)⟩

/-- The rule for sequences. -/
theorem Prog.Yields.bind {Q : β → ℕ → S → Prop} {P : α → ℕ → S → Prop} {f : α → Prog C R β} :
    ∀ {m : Prog C R α} {n : ℕ} {s : S}, m.Yields exec x stuck P n s →
      (∀ a n' s', P a n' s' → (f a).Yields exec x stuck Q n' s') →
      (m >>= f).Yields exec x stuck Q n s
  | .ret a, _, _, h, hf => hf a _ _ h
  | .throw, _, _, h, _ => h
  | .call _ _, _, _, h, hf => ⟨h.1, fun r s' hs => (h.2 r s' hs).bind hf⟩

end Yields

/-- A program that follows a protocol and throws nothing ensures what every
command of the protocol keeps, if each gets an answer. -/
theorem Follows.ensures {I : S → Φ → Prop} {Ok : (c : C) → R c → Prop}
    {Adv : Φ → (c : C) → R c → Φ → Prop} {E : Φ → Prop} {Q : α → Φ → Prop} (hE : ∀ φ, ¬E φ)
    (hexec : ∀ s φ x c, I s φ → (∀ r, Ok c r → ∃ φ', Adv φ c r φ') →
      ∃ r s', exec s x c = some (r, s') ∧ Ok c r ∧ ∀ φ', Adv φ c r φ' → I s' φ') :
    ∀ {m : Prog C R α} {φ : Φ}, Follows Ok Adv E Q m φ → ∀ {s : S}, I s φ →
      m.Ensures exec (fun a s' => ∃ φ', Q a φ' ∧ I s' φ') s := by
  intro m
  induction m with
  | ret a => exact fun hQ s hI => ⟨_, hQ, hI⟩
  | throw => exact fun h => (hE _ h).elim
  | call c k ih =>
    intro φ h s hI x
    obtain ⟨r, s', hs, hr, hadv⟩ := hexec s φ x c hI fun r hr => (h r hr).imp fun _ h => h.1
    obtain ⟨φ', hφ', hk⟩ := h r hr
    exact ⟨r, s', hs, ih r hk (hadv φ' hφ')⟩

/-- The interpreter that takes every answer from the circumstances and writes the calls
down, the newest last. -/
def Prog.record (trace : List (Call C R)) (answer : (c : C) → R c) (c : C) :
    Option (R c × List (Call C R)) :=
  some (answer c, trace ++ [⟨c, answer c⟩])

/-- What every call of a protocol keeps holds of the whole trace of a program that
follows it. -/
theorem Follows.ensures_record {I : List (Call C R) → Φ → Prop}
    {Adv : Φ → (c : C) → R c → Φ → Prop} {E : Φ → Prop} {Q : α → Φ → Prop} (hE : ∀ φ, ¬E φ)
    (hstep : ∀ trace φ c r φ', I trace φ → Adv φ c r φ' → I (trace ++ [⟨c, r⟩]) φ')
    {m : Prog C R α} {φ : Φ} (h : Follows (fun _ _ => True) Adv E Q m φ)
    {trace : List (Call C R)} (hI : I trace φ) :
    m.Ensures Prog.record (fun a trace' => ∃ φ', Q a φ' ∧ I trace' φ') trace :=
  h.ensures hE (fun trace φ answer c hI _ =>
    ⟨answer c, _, rfl, trivial, fun φ' hadv => hstep trace φ c (answer c) φ' hI hadv⟩) hI

/-- What every command of the protocol keeps holds when the program has come to an
end. -/
theorem Follows.kept {I : S → Φ → Prop} {Ok : (c : C) → R c → Prop}
    {Adv : Φ → (c : C) → R c → Φ → Prop} {E : Φ → Prop} {Q : α → Φ → Prop}
    (hexec : ∀ s φ x c r s', I s φ → exec s x c = some (r, s') →
      Ok c r ∧ ∀ φ', Adv φ c r φ' → I s' φ') :
    ∀ {m : Prog C R α} {φ : Φ}, Follows Ok Adv E Q m φ → ∀ {s s' : S} {x : ℕ → X} {a : α},
      I s φ → m.run exec x s = some (a, s') → ∃ φ', Q a φ' ∧ I s' φ' := by
  intro m
  induction m with
  | ret a =>
    intro φ hQ s s' x a' hI hrun
    obtain ⟨rfl, rfl⟩ := Prod.mk.inj (Option.some.inj hrun)
    exact ⟨φ, hQ, hI⟩
  | throw => exact fun _ _ _ _ _ _ hrun => nomatch hrun
  | call c k ih =>
    intro φ h s s' x a hI hrun
    obtain ⟨⟨r, t⟩, hs, hrest⟩ := Option.bind_eq_some_iff.mp hrun
    obtain ⟨hr, hadv⟩ := hexec s φ (x 0) c r t hI hs
    obtain ⟨φ', hφ', hk⟩ := h r hr
    exact ih r hk (hadv φ' hφ') hrest

end Alone

/-! ## The commands of a program -/

section Uses

variable {C : Type} {R : C → Type} {α β : Type u} {P P' : C → Prop}

/-- Whatever answers it gets, the program only sends commands in `P`. -/
def Prog.Uses (P : C → Prop) : Prog C R α → Prop
  | .ret _ => True
  | .throw => True
  | .call c k => P c ∧ ∀ r, (k r).Uses P

theorem Prog.Uses.send {c : C} (h : P c) : (Prog.send c : Prog C R (R c)).Uses P :=
  ⟨h, fun _ => trivial⟩

theorem Prog.Uses.bind {f : α → Prog C R β} :
    ∀ {m : Prog C R α}, m.Uses P → (∀ a, (f a).Uses P) → (m >>= f).Uses P
  | .ret a, _, hf => hf a
  | .throw, _, _ => trivial
  | .call _ _, h, hf => ⟨h.1, fun r => (h.2 r).bind hf⟩

theorem Prog.Uses.mono (hP : ∀ c, P c → P' c) :
    ∀ {m : Prog C R α}, m.Uses P → m.Uses P'
  | .ret _, _ => trivial
  | .throw, _ => trivial
  | .call c _, h => ⟨hP c h.1, fun r => (h.2 r).mono hP⟩

theorem Prog.Uses.ofOption (o : Option α) : (Prog.ofOption o : Prog C R α).Uses P := by
  cases o with
  | none => trivial
  | some a => trivial

end Uses

/-! ## Programs that are interrupted -/

section Interrupted

variable {C : Type} {R : C → Type} {S X : Type} {α β : Type u}
  {exec : S → X → (c : C) → Option (R c × S)} {P : C → S → Prop}

/-- Run the first `n` commands of a program: what is left of it, and the state. -/
def Prog.runFor (exec : S → X → (c : C) → Option (R c × S)) :
    ℕ → Prog C R α → (ℕ → X) → S → Option (Prog C R α × S)
  | n + 1, .call c k, x, s =>
    (exec s (x 0) c).bind fun rs => (k rs.1).runFor exec n (fun j => x (j + 1)) rs.2
  | _, m, _, s => some (m, s)

/-- Circumstances may be restricted before or while the program runs. -/
theorem Prog.runFor_comp {Y : Type} (g : Y → X) :
    ∀ (n : ℕ) (m : Prog C R α) (y : ℕ → Y) (s : S),
      m.runFor exec n (fun j => g (y j)) s = m.runFor (fun s y c => exec s (g y) c) n y s
  | 0, _, _, _ => by simp [Prog.runFor]
  | _ + 1, .ret _, _, _ => rfl
  | _ + 1, .throw, _, _ => rfl
  | n + 1, .call c k, y, s => by
    rw [Prog.runFor, Prog.runFor]
    congr 1
    exact funext fun rs => runFor_comp g n (k rs.1) (fun j => y (j + 1)) rs.2

/-- A run is interrupted after its last command, if not before. -/
theorem Prog.runFor_of_run :
    ∀ {m : Prog C R α} {x : ℕ → X} {s s' : S} {a : α}, m.run exec x s = some (a, s') →
      ∃ n, m.runFor exec n x s = some (.ret a, s') := by
  intro m
  induction m with
  | ret a =>
    intro x s s' b hrun
    obtain ⟨rfl, rfl⟩ := Prod.mk.inj (Option.some.inj hrun)
    exact ⟨0, rfl⟩
  | throw => exact fun hrun => nomatch hrun
  | call c k ih =>
    intro x s s' a hrun
    obtain ⟨⟨r, t⟩, hs, hrest⟩ := Option.bind_eq_some_iff.mp hrun
    obtain ⟨n, hn⟩ := ih r hrest
    exact ⟨n + 1, by rw [Prog.runFor, hs, Option.bind_some, hn]⟩

/-- `m.Secures exec P Q s`: run from `s` under any circumstances, `P` holds in front of
every command of `m`, every command gets an answer, no exception is thrown, and the result
and the last state are in `Q`. -/
def Prog.Secures (exec : S → X → (c : C) → Option (R c × S)) (P : C → S → Prop)
    (Q : α → S → Prop) : Prog C R α → S → Prop
  | .ret a, s => Q a s
  | .throw, _ => False
  | .call c k, s => P c s ∧
    ∀ x, ∃ r s', exec s x c = some (r, s') ∧ (k r).Secures exec P Q s'

theorem Prog.Secures.mono {Q Q' : α → S → Prop} (hQ : ∀ a s, Q a s → Q' a s) :
    ∀ {m : Prog C R α} {s : S}, m.Secures exec P Q s → m.Secures exec P Q' s
  | .ret _, _, h => hQ _ _ h
  | .throw, _, h => h
  | .call _ _, _, ⟨hP, h⟩ => ⟨hP, fun x =>
    let ⟨r, s', hs, hk⟩ := h x
    ⟨r, s', hs, hk.mono hQ⟩⟩

/-- The rule for sequences. -/
theorem Prog.Secures.bind {Q : α → S → Prop} {Q' : β → S → Prop} {f : α → Prog C R β} :
    ∀ {m : Prog C R α} {s : S}, m.Secures exec P Q s →
      (∀ a s', Q a s' → (f a).Secures exec P Q' s') → (m >>= f).Secures exec P Q' s := by
  intro m
  induction m with
  | ret a => exact fun h hf => hf a _ h
  | throw => exact fun h _ => h
  | call c k ih =>
    rintro s ⟨hP, h⟩ hf
    refine ⟨hP, fun x => ?_⟩
    obtain ⟨r, s', hs, hk⟩ := h x
    exact ⟨r, s', hs, ih r hk hf⟩

/-- What is left of an interrupted program is as good as the program was. -/
theorem Prog.Secures.runFor {Q : α → S → Prop} :
    ∀ {n : ℕ} {m m' : Prog C R α} {x : ℕ → X} {s s' : S}, m.Secures exec P Q s →
      m.runFor exec n x s = some (m', s') → m'.Secures exec P Q s' := by
  intro n
  induction n with
  | zero =>
    intro m m' x s s' h hrun
    obtain ⟨rfl, rfl⟩ := Prod.mk.inj (Option.some.inj (by simpa [Prog.runFor] using hrun))
    exact h
  | succ n ih =>
    intro m m' x s s' h hrun
    cases m with
    | ret a =>
      obtain ⟨rfl, rfl⟩ := Prod.mk.inj (Option.some.inj hrun)
      exact h
    | throw => exact h.elim
    | call c k =>
      obtain ⟨⟨r, t⟩, hs, hrest⟩ := Option.bind_eq_some_iff.mp hrun
      obtain ⟨r', t', hs', hk⟩ := h.2 (x 0)
      obtain ⟨rfl, rfl⟩ := Prod.mk.inj (Option.some.inj (hs.symm.trans hs'))
      exact ih hk hrest

/-- What every command of a program keeps holds when it is interrupted. -/
theorem Prog.Uses.runFor {P : C → Prop} {I : S → Prop}
    (hexec : ∀ s x c r s', P c → I s → exec s x c = some (r, s') → I s') :
    ∀ {n : ℕ} {m m' : Prog C R α} {x : ℕ → X} {s s' : S}, m.Uses P → I s →
      m.runFor exec n x s = some (m', s') → I s' := by
  intro n
  induction n with
  | zero =>
    intro m m' x s s' _ hI hrun
    obtain ⟨-, rfl⟩ := Prod.mk.inj (Option.some.inj (by simpa [Prog.runFor] using hrun))
    exact hI
  | succ n ih =>
    intro m m' x s s' h hI hrun
    cases m with
    | ret a =>
      obtain ⟨-, rfl⟩ := Prod.mk.inj (Option.some.inj hrun)
      exact hI
    | throw =>
      obtain ⟨-, rfl⟩ := Prod.mk.inj (Option.some.inj hrun)
      exact hI
    | call c k =>
      obtain ⟨⟨r, t⟩, hs, hrest⟩ := Option.bind_eq_some_iff.mp hrun
      exact ih (h.2 r) (hexec s (x 0) c r t h.1 hI hs) hrest

end Interrupted

/-! ## Programs that ignore answers -/

section Blind

variable {C : Type} {R : C → Type} {S X V α β : Type} {seen ignored : C → Prop}

/-- The program throws nothing and sends two kinds of commands: those it has
`seen` the answers of, and those whose answers it goes on without. -/
def Prog.Blind (seen ignored : C → Prop) : Prog C R α → Prop
  | .ret _ => True
  | .throw => False
  | .call c k =>
    (seen c ∨ ignored c ∧ ∀ r r', k r = k r') ∧ ∀ r, (k r).Blind seen ignored

/-- A command whose answer is dropped. -/
theorem Prog.Blind.drop {c : C} {m : Prog C R β} (hc : ignored c) (hm : m.Blind seen ignored) :
    (Prog.send c >>= fun _ => m).Blind seen ignored :=
  ⟨.inr ⟨hc, fun _ _ => rfl⟩, fun _ => hm⟩

theorem Prog.Blind.bind {f : α → Prog C R β} :
    ∀ {m : Prog C R α}, m.Blind seen ignored → (∀ a, (f a).Blind seen ignored) →
      (m >>= f).Blind seen ignored
  | .ret a, _, hf => hf a
  | .throw, hm, _ => hm.elim
  | .call _ _, ⟨hc, hk⟩, hf =>
    ⟨hc.imp_right fun ⟨hi, hr⟩ => ⟨hi, fun r r' => congrArg (· >>= f) (hr r r')⟩,
      fun r => (hk r).bind hf⟩

/-- The result of a program that ignores the answers which do not depend on a view
of the state depends on this view only, and so does the view it leaves. -/
theorem Prog.Blind.determined {exec : S → X → (c : C) → Option (R c × S)} {view : S → V}
    {I : V → Prop}
    (hseen : ∀ v c, I v → seen c → ∃ r v', I v' ∧ ∀ s x, view s = v →
      ∃ s', exec s x c = some (r, s') ∧ view s' = v')
    (hignored : ∀ s x c, ignored c → ∃ r s', exec s x c = some (r, s') ∧ view s' = view s)
    (hanswer : ∀ c, ignored c → Nonempty (R c)) :
    ∀ {m : Prog C R α}, m.Blind seen ignored → ∀ {v : V}, I v →
      ∃ a v', ∀ s, view s = v → m.Ensures exec (fun b s' => b = a ∧ view s' = v') s := by
  intro m
  induction m with
  | ret a => exact fun _ v _ => ⟨a, v, fun s hs => ⟨rfl, hs⟩⟩
  | throw => exact fun h => h.elim
  | call c k ih =>
    rintro ⟨hc, hk⟩ v hv
    rcases hc with hc | ⟨hc, hsame⟩
    · obtain ⟨r, v', hv', hexec⟩ := hseen v c hv hc
      obtain ⟨a, v'', ha⟩ := ih r (hk r) hv'
      refine ⟨a, v'', fun s hs x => ?_⟩
      obtain ⟨s', hs', hview⟩ := hexec s x hs
      exact ⟨r, s', hs', ha s' hview⟩
    · obtain ⟨r₀⟩ := hanswer c hc
      obtain ⟨a, v', ha⟩ := ih r₀ (hk r₀) hv
      refine ⟨a, v', fun s hs x => ?_⟩
      obtain ⟨r, s', hs', hview⟩ := hignored s x c hc
      exact ⟨r, s', hs', hsame r₀ r ▸ ha s' (hview.trans hs)⟩

/-- Run from `s`, the two programs come to the same result and leave the same view,
whatever the circumstances of each. -/
def Prog.Agree (exec : S → X → (c : C) → Option (R c × S)) (view : S → V) (m₁ m₂ : Prog C R α)
    (s : S) : Prop :=
  ∃ a v, m₁.Ensures exec (fun b s' => b = a ∧ view s' = v) s ∧
    m₂.Ensures exec (fun b s' => b = a ∧ view s' = v) s

section Agree

variable {exec : S → X → (c : C) → Option (R c × S)} {view : S → V}

theorem Prog.Agree.ret (a : α) (s : S) :
    Prog.Agree exec view (Prog.ret a : Prog C R α) (Prog.ret a) s :=
  ⟨a, view s, ⟨rfl, rfl⟩, ⟨rfl, rfl⟩⟩

/-- After beginnings that lead to the same state. -/
theorem Prog.Agree.bind_both {m₁ m₂ : Prog C R α} {f g : α → Prog C R β} {s s' : S} {a₁ a₂ : α}
    (hm₁ : m₁.Ensures exec (fun b s'' => b = a₁ ∧ s'' = s') s)
    (hm₂ : m₂.Ensures exec (fun b s'' => b = a₂ ∧ s'' = s') s)
    (h : Prog.Agree exec view (f a₁) (g a₂) s') :
    Prog.Agree exec view (m₁ >>= f) (m₂ >>= g) s := by
  obtain ⟨b, v, hf, hg⟩ := h
  refine ⟨b, v, hm₁.bind ?_, hm₂.bind ?_⟩
  · rintro a' s'' ⟨rfl, rfl⟩
    exact hf
  · rintro a' s'' ⟨rfl, rfl⟩
    exact hg

/-- After a common beginning. -/
theorem Prog.Agree.bind {m : Prog C R α} {f g : α → Prog C R β} {s s' : S} {a : α}
    (hm : m.Ensures exec (fun b s'' => b = a ∧ s'' = s') s)
    (h : Prog.Agree exec view (f a) (g a) s') : Prog.Agree exec view (m >>= f) (m >>= g) s :=
  .bind_both hm hm h

end Agree

end Blind

/-! ## The results of a program -/

section Returns

variable {C : Type} {R : C → Type} {α β : Type u} {Ok : (c : C) → R c → Prop}

/-- `m.Returns Ok a`: with some answers in `Ok` the program comes to the result `a`. -/
def Prog.Returns (Ok : (c : C) → R c → Prop) : Prog C R α → α → Prop
  | .ret a, x => a = x
  | .throw, _ => False
  | .call c k, x => ∃ r, Ok c r ∧ (k r).Returns Ok x

@[simp] theorem Prog.returns_ret {a x : α} :
    (Prog.ret a : Prog C R α).Returns Ok x ↔ a = x := Iff.rfl

@[simp] theorem Prog.returns_pure {a x : α} :
    (pure a : Prog C R α).Returns Ok x ↔ a = x := Iff.rfl

@[simp] theorem Prog.returns_send {c : C} {x : R c} :
    (Prog.send c : Prog C R (R c)).Returns Ok x ↔ Ok c x := by
  constructor
  · rintro ⟨r, hr, rfl⟩
    exact hr
  · exact fun h => ⟨x, h, rfl⟩

@[simp] theorem Prog.returns_bind {f : α → Prog C R β} {x : β} :
    ∀ {m : Prog C R α}, (m >>= f).Returns Ok x ↔ ∃ a, m.Returns Ok a ∧ (f a).Returns Ok x
  | .ret a => by
    constructor
    · exact fun h => ⟨a, rfl, h⟩
    · rintro ⟨_, rfl, h⟩
      exact h
  | .throw => ⟨fun h => h.elim, fun ⟨_, h, _⟩ => h.elim⟩
  | .call c k => by
    constructor
    · rintro ⟨r, hr, h⟩
      obtain ⟨a, ha, hf⟩ := Prog.returns_bind.mp h
      exact ⟨a, ⟨r, hr, ha⟩, hf⟩
    · rintro ⟨a, ⟨r, hr, ha⟩, hf⟩
      exact ⟨r, hr, Prog.returns_bind.mpr ⟨a, ha, hf⟩⟩

/-- A program that is interrupted after its last command has come to a result. -/
theorem Prog.returns_of_runFor {S X : Type} {exec : S → X → (c : C) → Option (R c × S)} {a : α} :
    ∀ {n : ℕ} {m : Prog C R α} {x : ℕ → X} {s s' : S},
      m.runFor exec n x s = some (.ret a, s') → m.Returns (fun _ _ => True) a := by
  intro n
  induction n with
  | zero =>
    intro m x s s' hrun
    obtain ⟨rfl, -⟩ := Prod.mk.inj (Option.some.inj (by simpa [Prog.runFor] using hrun))
    rfl
  | succ n ih =>
    intro m x s s' hrun
    cases m with
    | ret b =>
      obtain ⟨hret, -⟩ := Prod.mk.inj (Option.some.inj hrun)
      exact Prog.ret.inj hret
    | throw => cases (Prod.mk.inj (Option.some.inj hrun)).1
    | call c k =>
      obtain ⟨⟨r, t⟩, hs, hrest⟩ := Option.bind_eq_some_iff.mp hrun
      exact ⟨r, trivial, ih hrest⟩

/-- In a phase that allows every command a program stays until it returns. -/
theorem Follows.stays {Φ : Type} {Adv : Φ → (c : C) → R c → Φ → Prop} {E : Φ → Prop} {φ : Φ}
    (hstay : ∀ c r, Adv φ c r φ) (hE : E φ) :
    ∀ {m : Prog C R α}, Follows Ok Adv E (fun a φ' => m.Returns Ok a ∧ φ' = φ) m φ
  | .ret _ => ⟨rfl, rfl⟩
  | .throw => hE
  | .call c _ => fun r hr =>
    ⟨φ, hstay c r, (Follows.stays hstay hE).mono fun _ _ ⟨ha, hφ⟩ => ⟨⟨r, hr, ha⟩, hφ⟩⟩

end Returns

/-! ## Runs of a labelled transition system -/

section Runs

variable {S L : Type}

/-- The states that runs from `s₀` reach when every step `s –l→ s'` is one of
`step` and meets the side condition `ok s l`. -/
inductive Reach (step : S → L → Option S) (ok : S → L → Prop) (s₀ : S) : S → Prop where
  /-- the initial state -/
  | refl : Reach step ok s₀ s₀
  /-- one more step -/
  | tail {s s' : S} {l : L} : Reach step ok s₀ s → ok s l → step s l = some s' →
      Reach step ok s₀ s'

variable {step : S → L → Option S} {ok ok' : S → L → Prop} {s₀ s : S}

/-- The invariant rule: what holds at the start and survives every permitted
step of a reachable state holds of every reachable state. -/
theorem Reach.invariant {I : S → Prop} (h₀ : I s₀)
    (hstep : ∀ s l s', Reach step ok s₀ s → I s → ok s l → step s l = some s' → I s')
    (h : Reach step ok s₀ s) : I s := by
  induction h with
  | refl => exact h₀
  | tail hr hok hs ih => exact hstep _ _ _ hr ih hok hs

/-- A run meets every side condition that follows from its own one and an
invariant. -/
theorem Reach.strengthen {I : S → Prop} (h₀ : I s₀)
    (hstep : ∀ s l s', I s → ok s l → step s l = some s' → I s')
    (hok : ∀ s l, I s → ok s l → ok' s l) (h : Reach step ok s₀ s) : Reach step ok' s₀ s := by
  have hinv : ∀ {s}, Reach step ok s₀ s → I s := fun h =>
    h.invariant h₀ fun _ _ _ _ => hstep _ _ _
  induction h with
  | refl => exact .refl
  | tail hr hl hs ih => exact ih.tail (hok _ _ (hinv hr) hl) hs

/-- Replay a list of labels, checking the side condition at every step. -/
def replay (step : S → L → Option S) (ok : S → L → Bool) : S → List L → Option S
  | s, [] => some s
  | s, l :: ls => if ok s l then (step s l).bind fun s' => replay step ok s' ls else none

/-- A replay that goes through is a run, if the check of each of its labels is as
strong as the side condition. -/
theorem Reach.of_replay_mem {okb : S → L → Bool} :
    ∀ {ls : List L}, (∀ l ∈ ls, ∀ s, okb s l = true → ok s l) → ∀ {s₁ s₂ : S},
      Reach step ok s₀ s₁ → replay step okb s₁ ls = some s₂ → Reach step ok s₀ s₂ := by
  intro ls
  induction ls with
  | nil =>
    intro _ s₁ s₂ hr h
    obtain rfl := Option.some.inj h
    exact hr
  | cons l ls ih =>
    intro hok s₁ s₂ hr h
    obtain ⟨hl, hls⟩ := List.forall_mem_cons.mp hok
    rw [replay] at h
    split at h
    · rename_i hcheck
      obtain ⟨s', hs, hrest⟩ := Option.bind_eq_some_iff.mp h
      exact ih hls (hr.tail (hl _ hcheck) hs) hrest
    · cases h

/-- A replay that goes through is a run. -/
theorem Reach.of_replay {okb : S → L → Bool} (hok : ∀ s l, okb s l = true → ok s l)
    {ls : List L} {s₁ s₂ : S} (hr : Reach step ok s₀ s₁) (h : replay step okb s₁ ls = some s₂) :
    Reach step ok s₀ s₂ :=
  .of_replay_mem (fun l _ s => hok s l) hr h

/-- A replay whose last state passes a test shows a run to such a state. -/
theorem Reach.of_replay_any_mem {o : S → L → Prop} {b : S → L → Bool} {ls : List L}
    {P : S → Bool} (hok : ∀ l ∈ ls, ∀ s, b s l = true → o s l)
    (h : (replay step b s₀ ls).any P = true) :
    ∃ s, Reach step o s₀ s ∧ P s = true := by
  rcases hs : replay step b s₀ ls with _ | s
  · rw [hs] at h
    cases h
  · rw [hs] at h
    exact ⟨s, .of_replay_mem hok .refl hs, h⟩

theorem Reach.of_replay_any {b : S → L → Bool} (hok : ∀ s l, b s l = true → ok s l)
    {ls : List L} {P : S → Bool} (h : (replay step b s₀ ls).any P = true) :
    ∃ s, Reach step ok s₀ s ∧ P s = true :=
  Reach.of_replay_any_mem (fun l _ s => hok s l) h

end Runs

end GameBackend
