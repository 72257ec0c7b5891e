import Mathlib.Logic.Function.Basic
import Mathlib.Order.Basic
import Mathlib.Tactic.SplitIfs
import Redirector.Shutdown

/-!
# Shutdown reaches everyone, once

Any number of calls ask for shutdown and any number of tasks wait for it, all at the same time. A
run is any order of the steps that they take: the flag and the signal are two, and so are the
receiver and the look at the flag. Whatever the order, one of the calls is the first and the only
one to send a signal, and no task waits for a signal that it has missed (`seen_once`).

## The invariant

Raising the flag is a single step, so that one call alone finds it down. From then on there is no
other state of the flag and the signals than the three of `Phase`: nothing has happened, the first
call is about to send, it has sent.

A task that waits has made its receiver before it found the flag down, so no signal had been sent by
then (`Listener.Informed`). Nobody else takes from its receiver (`Apart`), and only one signal is
sent, so that it is still there when the task looks for it.
-/

namespace Redirector.Shutdown

/-! ## What a receiver finds -/

section

variable {s : Shutdown} {receiver : Nat}

/-- To take a signal moves the receiver alone. -/
theorem receive_keeps (s : Shutdown) (receiver : Nat) :
    (s.receive receiver).2.triggered = s.triggered ∧ (s.receive receiver).2.sent = s.sent ∧
      (s.receive receiver).2.receivers.length = s.receivers.length := by
  rw [receive]
  split
  · exact ⟨rfl, rfl, rfl⟩
  · split_ifs <;> simp

theorem await_on (s : Shutdown) (receiver : Nat) :
    s.await (.on receiver) =
      (if (s.receive receiver).1 = .empty then .on receiver else .over,
        (s.receive receiver).2) := by
  rw [await]
  rcases s.receive receiver with ⟨_ | _ | _, s'⟩ <;> rfl

theorem receive_cases (hsent : s.sent ≤ 1)
    (hpassed : ∀ p, s.receivers[receiver]? = some p → p ≤ s.sent) :
    (s.receive receiver = (.empty, s) ∧
      ∀ p, s.receivers[receiver]? = some p → p = s.sent) ∨
    (s.receive receiver =
        (.signal, { s with receivers := s.receivers.set receiver 1 }) ∧
      s.receivers[receiver]? = some 0 ∧ s.sent = 1) := by
  rw [receive]
  cases hget : s.receivers[receiver]? with
  | none =>
    refine Or.inl ⟨rfl, ?_⟩
    intro p hp
    cases hp
  | some p =>
    have hp := hpassed p hget
    by_cases hle : s.sent ≤ p
    · refine Or.inl ⟨by simp [hle], ?_⟩
      rintro q ⟨⟩
      exact Nat.le_antisymm hp hle
    · obtain rfl : p = 0 := by omega
      have hone : s.sent = 1 := by omega
      exact Or.inr ⟨by simp [hone], rfl, hone⟩

end

/-! ## Who takes part -/

/-- How far a call that asks for shutdown has come. -/
inductive Caller where
  | idle
  /-- It has found the flag down, and is about to send. -/
  | sending
  /-- It has said whether it was the first. -/
  | returned (first : Bool)
  deriving DecidableEq

/-- The call has found the flag down. -/
def Caller.IsFirst (c : Caller) : Prop := c = .sending ∨ c = .returned true

/-- How far a task has come that is to learn of shutdown. -/
inductive Listener where
  | idle
  /-- It is to wait, has made its receiver, and not looked at the flag. -/
  | subscribed (receiver : Nat)
  | waits (w : Waiting)
  /-- It has a receiver, and looks for signals by itself as often as it likes. -/
  | attached (receiver : Nat)
  deriving DecidableEq

/-- The receiver of a task. -/
def Listener.receiver? : Listener → Option Nat
  | idle => none
  | subscribed receiver => some receiver
  | waits .over => none
  | waits (.on receiver) => some receiver
  | attached receiver => some receiver

/-- What a task relies on that waits: it is done only when shutdown was asked for, and while it is
not, no signal is behind its receiver. -/
def Listener.Informed (s : Shutdown) : Listener → Prop
  | waits .over => s.triggered = true
  | waits (.on receiver) => s.receivers[receiver]? = some 0
  | _ => True

theorem Listener.Informed.mono {s s' : Shutdown} {l : Listener} (h : l.Informed s)
    (htriggered : s.triggered = true → s'.triggered = true)
    (hreceivers : ∀ {r}, l = .waits (.on r) → s.receivers[r]? = some 0 →
      s'.receivers[r]? = some 0) : l.Informed s' := by
  cases l with
  | idle | subscribed | attached => trivial
  | waits w =>
    rcases w with _ | r
    · exact htriggered h
    · exact hreceivers rfl h

/-- The state of everything that takes part. -/
structure System (ι κ : Type) where
  shared : Shutdown
  callers : ι → Caller
  listeners : κ → Listener

/-- What happens in a step. -/
inductive Event (ι κ : Type) where
  | raise (i : ι)
  | send (i : ι)
  /-- A task makes a receiver. -/
  | subscribe (k : κ) (receiver : Nat)
  /-- A task that is to wait looks at the flag. -/
  | look (k : κ)
  /-- A task looks into its receiver. -/
  | receive (k : κ) (receiver : Nat) (found : Received)

namespace System

variable {ι κ : Type}

def initial : System ι κ := ⟨Shutdown.initial, fun _ ↦ .idle, fun _ ↦ .idle⟩

section

variable [DecidableEq ι] [DecidableEq κ]

/-- One call has come further. -/
def setCaller (s : System ι κ) (i : ι) (c : Caller) : System ι κ :=
  { s with callers := Function.update s.callers i c }

/-- One task has come further. -/
def setListener (s : System ι κ) (k : κ) (l : Listener) : System ι κ :=
  { s with listeners := Function.update s.listeners k l }

inductive Step : System ι κ → Event ι κ → System ι κ → Prop
  | raise {s : System ι κ} {i : ι} (h : s.callers i = .idle) :
    Step s (.raise i) ({ s with shared := s.shared.raise.2 }.setCaller i
      (if s.shared.raise.1 then .sending else .returned false))
  | send {s : System ι κ} {i : ι} (h : s.callers i = .sending) :
    Step s (.send i) ({ s with shared := s.shared.send }.setCaller i (.returned true))
  | subscribe {s : System ι κ} {k : κ} (h : s.listeners k = .idle) :
    Step s (.subscribe k s.shared.subscribe.1) ({ s with
      shared := s.shared.subscribe.2 }.setListener k (.subscribed s.shared.subscribe.1))
  | attach {s : System ι κ} {k : κ} (h : s.listeners k = .idle) :
    Step s (.subscribe k s.shared.subscribe.1) ({ s with
      shared := s.shared.subscribe.2 }.setListener k (.attached s.shared.subscribe.1))
  | look {s : System ι κ} {k : κ} {receiver : Nat} (h : s.listeners k = .subscribed receiver) :
    Step s (.look k) (s.setListener k
      (.waits (if s.shared.triggered then .over else .on receiver)))
  | await {s : System ι κ} {k : κ} {receiver : Nat} (h : s.listeners k = .waits (.on receiver)) :
    Step s (.receive k receiver (s.shared.receive receiver).1) ({ s with
      shared := (s.shared.await (.on receiver)).2 }.setListener k
        (.waits (s.shared.await (.on receiver)).1))
  | receive {s : System ι κ} {k : κ} {receiver : Nat} (h : s.listeners k = .attached receiver) :
    Step s (.receive k receiver (s.shared.receive receiver).1)
      { s with shared := (s.shared.receive receiver).2 }

/-- Any number of steps from a first state, with what happened in them, the latest first. -/
inductive Run (s₀ : System ι κ) : List (Event ι κ) → System ι κ → Prop
  | start : Run s₀ [] s₀
  | step {τ : List (Event ι κ)} {s s' : System ι κ} {e : Event ι κ} (h : Run s₀ τ s)
    (hstep : Step s e s') : Run s₀ (e :: τ) s'

/-! ## Left alone -/

/-- **A call that no one comes between does what `trigger` does.** -/
theorem trigger_alone {s : System ι κ} {i : ι} (h : s.callers i = .idle) :
    ∃ τ, Run s τ ({ s with shared := s.shared.trigger.2 }.setCaller i
      (.returned s.shared.trigger.1)) := by
  have hraise := Run.start.step (Step.raise h)
  cases hflag : s.shared.triggered with
  | true =>
    refine ⟨[.raise i], ?_⟩
    have htrigger : s.shared.trigger = (false, s.shared.raise.2) := by
      simp [trigger, raise, hflag]
    rw [htrigger]
    simpa [raise, hflag] using hraise
  | false =>
    refine ⟨[.send i, .raise i], ?_⟩
    have htrigger : s.shared.trigger = (true, s.shared.raise.2.send) := by
      simp [trigger, raise, hflag]
    rw [htrigger]
    have hsend := hraise.step (Step.send (i := i) (by simp [setCaller, raise, hflag]))
    simpa [setCaller] using hsend

/-- **A task that no one comes between does what `wait` does.** -/
theorem wait_alone {s : System ι κ} {k : κ} (h : s.listeners k = .idle) :
    ∃ τ, Run s τ ({ s with shared := s.shared.wait.2 }.setListener k (.waits s.shared.wait.1)) := by
  refine ⟨[.look k, .subscribe k s.shared.subscribe.1], ?_⟩
  have hsubscribe := Run.start.step (Step.subscribe h)
  have hlook := hsubscribe.step (Step.look (Function.update_self k _ _))
  cases hflag : s.shared.triggered with
  | true => simpa [setListener, subscribe, wait, hflag] using hlook
  | false => simpa [setListener, subscribe, wait, hflag] using hlook

end

/-! ## Histories -/

def sends : List (Event ι κ) → Nat
  | [] => 0
  | .send _ :: τ => sends τ + 1
  | _ :: τ => sends τ

/-- How many signals had been sent when a receiver was made, if it was. -/
def sentBefore? (receiver : Nat) : List (Event ι κ) → Option Nat
  | [] => none
  | .subscribe _ r :: τ => if r = receiver then some (sends τ) else sentBefore? receiver τ
  | _ :: τ => sentBefore? receiver τ

/-- How many signals were taken from a receiver. -/
def taken (receiver : Nat) : List (Event ι κ) → Nat
  | [] => 0
  | .receive _ r .signal :: τ => if r = receiver then taken receiver τ + 1 else taken receiver τ
  | _ :: τ => taken receiver τ

/-! ## The invariant -/

/-- **How far shutdown has come**: nothing has happened, the first call has raised the flag, or it
has also sent the signal. -/
inductive Phase (callers : ι → Caller) : Bool → Nat → Prop
  | before (h : ∀ i, callers i = .idle) : Phase callers false 0
  | sending {i : ι} (hi : callers i = .sending)
    (h : ∀ j, (callers j).IsFirst → j = i) : Phase callers true 0
  | after {i : ι} (hi : callers i = .returned true)
    (h : ∀ j, (callers j).IsFirst → j = i) : Phase callers true 1

/-- Each receiver is there, and is that of one task alone. -/
structure Apart (listeners : κ → Listener) (n : Nat) : Prop where
  lt : ∀ {k r}, (listeners k).receiver? = some r → r < n
  eq : ∀ {k l r}, (listeners k).receiver? = some r → (listeners l).receiver? = some r → k = l

/-- What a history says about the receivers. -/
structure Recorded (τ : List (Event ι κ)) (s : Shutdown) : Prop where
  sent : s.sent = sends τ
  passed : ∀ r, s.receivers[r]? = (sentBefore? r τ).map (· + taken r τ)
  passed_le : ∀ p ∈ s.receivers, p ≤ s.sent
  taken : ∀ r, sentBefore? r τ = none → taken r τ = 0
  /-- Nobody was too slow. -/
  kept : ∀ k r, .receive k r .lagged ∉ τ

/-- **The invariant of a run.** -/
structure Invariant (τ : List (Event ι κ)) (s : System ι κ) : Prop where
  phase : Phase s.callers s.shared.triggered s.shared.sent
  apart : Apart s.listeners s.shared.receivers.length
  recorded : Recorded τ s.shared
  informed : ∀ k, (s.listeners k).Informed s.shared

namespace Phase

variable {callers : ι → Caller} {triggered : Bool} {n : Nat}

theorem le_one (h : Phase callers triggered n) : n ≤ 1 := by
  cases h with
  | before | sending => exact Nat.zero_le 1
  | after => exact Nat.le_refl 1

theorem eq_zero (h : Phase callers false n) : n = 0 := by
  cases h
  rfl

theorem eq_true (h : Phase callers triggered n) (hn : n ≠ 0) : triggered = true := by
  cases h with
  | before => exact absurd rfl hn
  | sending | after => rfl

theorem existsUnique (h : Phase callers triggered n) (hcalled : ∃ i, callers i ≠ .idle) :
    ∃! i, (callers i).IsFirst := by
  cases h with
  | before hall =>
    obtain ⟨i, hi⟩ := hcalled
    exact absurd (hall i) hi
  | sending hi hfirst => exact ⟨_, Or.inl hi, hfirst⟩
  | after hi hfirst => exact ⟨_, Or.inr hi, hfirst⟩

theorem eq_one_iff (h : Phase callers triggered n) : n = 1 ↔ ∃ i, callers i = .returned true := by
  cases h with
  | before hall => simp [hall]
  | @sending i hi hfirst =>
    have hnone : ∀ j, callers j ≠ .returned true := by
      intro j hj
      rw [hfirst j (Or.inr hj), hi] at hj
      cases hj
    simp [hnone]
  | after hi => exact ⟨fun _ ↦ ⟨_, hi⟩, fun _ ↦ rfl⟩

variable [DecidableEq ι] {i : ι}

private theorem first_update {j : ι} (h : ∀ k, (callers k).IsFirst → k = j) :
    ∀ k, (Function.update callers i (.returned false) k).IsFirst → k = j := by
  rw [Function.forall_update_iff callers (p := fun k c ↦ c.IsFirst → k = j)]
  exact ⟨by simp [Caller.IsFirst], fun k _ ↦ h k⟩

theorem raise (h : Phase callers triggered n) (hi : callers i = .idle) :
    Phase (Function.update callers i (if !triggered then .sending else .returned false))
      true n := by
  have hne : ∀ {j c}, callers j = c → c ≠ .idle → j ≠ i := by
    rintro j c hj hc rfl
    exact hc (hj.symm.trans hi)
  cases h with
  | before hall =>
    refine .sending (i := i) (Function.update_self _ _ _) fun j hj ↦ ?_
    by_contra hji
    rw [Function.update_of_ne hji, hall j] at hj
    simp [Caller.IsFirst] at hj
  | sending hj hfirst =>
    exact .sending ((Function.update_of_ne (hne hj nofun) _ _).trans hj) (first_update hfirst)
  | after hj hfirst =>
    exact .after ((Function.update_of_ne (hne hj nofun) _ _).trans hj) (first_update hfirst)

theorem send (h : Phase callers triggered n) (hi : callers i = .sending) :
    Phase (Function.update callers i (.returned true)) triggered (n + 1) := by
  cases h with
  | before hall =>
    rw [hall i] at hi
    cases hi
  | sending hj hfirst =>
    obtain rfl := hfirst i (Or.inl hi)
    refine .after (Function.update_self _ _ _) ?_
    rw [Function.forall_update_iff callers (p := fun k c ↦ c.IsFirst → k = i)]
    exact ⟨fun _ ↦ rfl, fun k _ ↦ hfirst k⟩
  | after hj hfirst =>
    obtain rfl := hfirst i (Or.inl hi)
    rw [hi] at hj
    cases hj

end Phase

namespace Apart

variable {listeners : κ → Listener} {n : Nat} [DecidableEq κ] {k : κ} {l : Listener}

theorem update (h : Apart listeners n)
    (hl : ∀ {r}, l.receiver? = some r → (listeners k).receiver? = some r) :
    Apart (Function.update listeners k l) n := by
  have hbefore : ∀ j {r}, (Function.update listeners k l j).receiver? = some r →
      (listeners j).receiver? = some r := by
    rw [Function.forall_update_iff listeners
      (p := fun j l ↦ ∀ {r}, l.receiver? = some r → (listeners j).receiver? = some r)]
    exact ⟨hl, fun _ _ _ ↦ id⟩
  exact ⟨fun hj ↦ h.lt (hbefore _ hj), fun hj hj' ↦ h.eq (hbefore _ hj) (hbefore _ hj')⟩

/-- A receiver that was not there before is that of the task which has made it. -/
theorem subscribe (h : Apart listeners n) (hl : l.receiver? = some n) :
    Apart (Function.update listeners k l) (n + 1) := by
  have hcases : ∀ j {r}, (Function.update listeners k l j).receiver? = some r →
      (j = k ∧ r = n) ∨ (listeners j).receiver? = some r := by
    rw [Function.forall_update_iff listeners
      (p := fun j l ↦ ∀ {r}, l.receiver? = some r →
        (j = k ∧ r = n) ∨ (listeners j).receiver? = some r)]
    exact ⟨fun hr ↦ Or.inl ⟨rfl, Option.some.inj (hr.symm.trans hl)⟩, fun _ _ _ ↦ Or.inr⟩
  constructor
  · intro j r hj
    rcases hcases j hj with ⟨-, rfl⟩ | hj
    · exact Nat.lt_succ_self r
    · exact Nat.lt_succ_of_lt (h.lt hj)
  · intro j j' r hj hj'
    have hnew : ∀ {j}, r = n → (listeners j).receiver? ≠ some r :=
      fun hr hj ↦ Nat.ne_of_lt (h.lt hj) hr
    rcases hcases j hj with ⟨hjk, hr⟩ | hj <;> rcases hcases j' hj' with ⟨hjk', hr'⟩ | hj'
    · exact hjk.trans hjk'.symm
    · exact absurd hj' (hnew hr)
    · exact absurd hj (hnew hr')
    · exact h.eq hj hj'

end Apart

namespace Recorded

variable {τ : List (Event ι κ)} {s : Shutdown}

theorem raise (h : Recorded τ s) (i : ι) : Recorded (.raise i :: τ) s.raise.2 where
  sent := h.sent
  passed := h.passed
  passed_le := h.passed_le
  taken := h.taken
  kept k r hmem := h.kept k r (by simpa using hmem)

theorem look (h : Recorded τ s) (k : κ) : Recorded (.look k :: τ) s where
  sent := h.sent
  passed := h.passed
  passed_le := h.passed_le
  taken := h.taken
  kept k r hmem := h.kept k r (by simpa using hmem)

theorem send (h : Recorded τ s) (i : ι) : Recorded (.send i :: τ) s.send where
  sent := congrArg (· + 1) h.sent
  passed := h.passed
  passed_le p hp := Nat.le_succ_of_le (h.passed_le p hp)
  taken := h.taken
  kept k r hmem := h.kept k r (by simpa using hmem)

theorem subscribe (h : Recorded τ s) (k : κ) :
    Recorded (.subscribe k s.subscribe.1 :: τ) s.subscribe.2 where
  sent := h.sent
  passed := by
    intro r
    by_cases hr : s.receivers.length = r
    · subst hr
      have hnone : sentBefore? s.receivers.length τ = none := by
        have hget := h.passed s.receivers.length
        rw [List.getElem?_eq_none (Nat.le_refl _)] at hget
        exact Option.map_eq_none_iff.mp hget.symm
      simp [Shutdown.subscribe, sentBefore?, System.taken, h.taken _ hnone, h.sent]
    · have hget : (s.receivers ++ [s.sent])[r]? = s.receivers[r]? := by
        rcases Nat.lt_or_gt_of_ne hr with hlt | hgt
        · rw [List.getElem?_eq_none (by simp; omega), List.getElem?_eq_none (by omega)]
        · exact List.getElem?_append_left hgt
      simpa [Shutdown.subscribe, sentBefore?, System.taken, hr, hget] using h.passed r
  passed_le := by
    intro p hp
    rcases List.mem_append.mp hp with hold | hnew
    · exact h.passed_le p hold
    · exact Nat.le_of_eq (List.mem_singleton.mp hnew)
  taken := by
    intro r hnone
    by_cases hr : s.receivers.length = r
    · simp [Shutdown.subscribe, sentBefore?, hr] at hnone
    · exact h.taken r (by simpa [Shutdown.subscribe, sentBefore?, hr] using hnone)
  kept k r hmem := h.kept k r (by simpa using hmem)

theorem receive (h : Recorded τ s) (hsent : s.sent ≤ 1) (k : κ) (r : Nat) :
    Recorded (.receive k r (s.receive r).1 :: τ) (s.receive r).2 := by
  rcases receive_cases hsent fun p hp ↦ h.passed_le p (List.mem_of_getElem? hp) with
    ⟨hfound, -⟩ | ⟨hfound, hzero, hone⟩
  · rw [hfound]
    exact ⟨h.sent, h.passed, h.passed_le, h.taken, fun k r hmem ↦ h.kept k r (by simpa using hmem)⟩
  · obtain ⟨n, hbefore, hn⟩ := Option.map_eq_some_iff.mp ((h.passed r).symm.trans hzero)
    rw [hfound]
    refine ⟨h.sent, ?_, ?_, ?_, fun k r hmem ↦ h.kept k r (by simpa using hmem)⟩
    · intro q
      by_cases hq : r = q
      · subst hq
        have hlt : r < s.receivers.length := (List.getElem?_eq_some_iff.mp hzero).1
        simp [sentBefore?, System.taken, hbefore, hlt]
        omega
      · simpa [sentBefore?, System.taken, hq] using h.passed q
    · intro p hp
      rcases List.mem_or_eq_of_mem_set hp with hold | rfl
      · exact h.passed_le p hold
      · exact Nat.le_of_eq hone.symm
    · intro q hnone
      have hq : r ≠ q := by
        rintro rfl
        simp [sentBefore?, hbefore] at hnone
      simpa [sentBefore?, System.taken, hq] using h.taken q hnone

end Recorded

namespace Invariant

variable {τ : List (Event ι κ)} {s s' : System ι κ}

theorem start : Invariant [] (initial : System ι κ) where
  phase := .before fun _ ↦ rfl
  apart := ⟨nofun, nofun⟩
  recorded := ⟨rfl, fun _ ↦ rfl, nofun, fun _ _ ↦ rfl, nofun⟩
  informed _ := trivial

theorem receive_cases (h : Invariant τ s) (r : Nat) :
    (s.shared.receive r = (.empty, s.shared) ∧
      ∀ p, s.shared.receivers[r]? = some p → p = s.shared.sent) ∨
    (s.shared.receive r = (.signal, { s.shared with receivers := s.shared.receivers.set r 1 }) ∧
      s.shared.receivers[r]? = some 0 ∧ s.shared.sent = 1) :=
  Shutdown.receive_cases h.phase.le_one
    fun p hp ↦ h.recorded.passed_le p (List.mem_of_getElem? hp)

/-- Nobody takes what another task waits for. -/
theorem informed_receive (h : Invariant τ s) {k j : κ} {r : Nat}
    (hk : (s.listeners k).receiver? = some r) (hjk : j ≠ k) :
    (s.listeners j).Informed (s.shared.receive r).2 := by
  have htriggered := (s.shared.receive_keeps r).1
  refine (h.informed j).mono (fun ht ↦ htriggered.trans ht) fun {q} hj hget ↦ ?_
  have hne : r ≠ q := by
    rintro rfl
    exact hjk (h.apart.eq (by rw [hj]; rfl) hk)
  rcases h.receive_cases r with ⟨hfound, -⟩ | ⟨hfound, -⟩
  · rwa [hfound]
  · rw [hfound]
    exact (List.getElem?_set_ne hne).trans hget

private theorem receive (h : Invariant τ s) {k : κ} {r : Nat} (hk : s.listeners k = .attached r) :
    Invariant (.receive k r (s.shared.receive r).1 :: τ)
      { s with shared := (s.shared.receive r).2 } := by
  obtain ⟨htriggered, hsent, hlength⟩ := s.shared.receive_keeps r
  refine ⟨?_, ?_, h.recorded.receive h.phase.le_one k r, ?_⟩
  · show Phase s.callers (s.shared.receive r).2.triggered (s.shared.receive r).2.sent
    rw [htriggered, hsent]
    exact h.phase
  · show Apart s.listeners (s.shared.receive r).2.receivers.length
    rw [hlength]
    exact h.apart
  · intro j
    by_cases hjk : j = k
    · subst hjk
      show (s.listeners j).Informed _
      rw [hk]
      trivial
    · exact h.informed_receive (by rw [hk]; rfl) hjk

variable [DecidableEq κ]

private theorem subscribe (h : Invariant τ s) {k : κ} {l : Listener}
    (hreceiver : l.receiver? = some s.shared.subscribe.1)
    (hl : l.Informed s.shared.subscribe.2) :
    Invariant (.subscribe k s.shared.subscribe.1 :: τ)
      ({ s with shared := s.shared.subscribe.2 }.setListener k l) where
  phase := h.phase
  apart := by
    have hlength : s.shared.subscribe.2.receivers.length = s.shared.receivers.length + 1 := by
      simp [Shutdown.subscribe]
    rw [setListener, hlength]
    exact h.apart.subscribe hreceiver
  recorded := h.recorded.subscribe k
  informed := by
    refine (Function.forall_update_iff _ fun _ ↦ Listener.Informed _).mpr ⟨hl, fun j _ ↦ ?_⟩
    refine (h.informed j).mono id fun _ hget ↦ ?_
    exact (List.getElem?_append_left (List.getElem?_eq_some_iff.mp hget).1).trans hget

private theorem look (h : Invariant τ s) {k : κ} {r : Nat}
    (hk : s.listeners k = .subscribed r) :
    Invariant (.look k :: τ) (s.setListener k
      (.waits (if s.shared.triggered then .over else .on r))) := by
  have hreceiver : (s.listeners k).receiver? = some r := by rw [hk]; rfl
  refine ⟨h.phase, ?_, h.recorded.look k, ?_⟩
  · refine h.apart.update fun hq ↦ ?_
    rw [hreceiver]
    split_ifs at hq
    · cases hq
    · exact hq
  · refine (Function.forall_update_iff _ fun _ ↦ Listener.Informed _).mpr
      ⟨?_, fun j _ ↦ h.informed j⟩
    split_ifs with hflag
    · exact hflag
    · -- the flag is down, so that no signal is behind the receiver
      have hphase := h.phase
      rw [Bool.eq_false_iff.mpr hflag] at hphase
      have hlt := h.apart.lt hreceiver
      have hle := h.recorded.passed_le _ (List.getElem_mem hlt)
      rw [hphase.eq_zero] at hle
      exact (List.getElem?_eq_getElem hlt).trans (congrArg some (Nat.le_zero.mp hle))

private theorem await (h : Invariant τ s) {k : κ} {r : Nat}
    (hk : s.listeners k = .waits (.on r)) :
    Invariant (.receive k r (s.shared.receive r).1 :: τ) ({ s with
      shared := (s.shared.await (.on r)).2 }.setListener k
        (.waits (s.shared.await (.on r)).1)) := by
  have hreceiver : (s.listeners k).receiver? = some r := by rw [hk]; rfl
  have hinformed := h.informed k
  obtain ⟨htriggered, hsent, hlength⟩ := s.shared.receive_keeps r
  rw [await_on]
  refine ⟨?_, ?_, h.recorded.receive h.phase.le_one k r, ?_⟩
  · show Phase s.callers (s.shared.receive r).2.triggered (s.shared.receive r).2.sent
    rw [htriggered, hsent]
    exact h.phase
  · show Apart _ (s.shared.receive r).2.receivers.length
    rw [hlength]
    refine h.apart.update fun hq ↦ ?_
    rw [hreceiver]
    split_ifs at hq
    · exact hq
    · cases hq
  · refine (Function.forall_update_iff _ fun _ ↦ Listener.Informed _).mpr
      ⟨?_, fun j hjk ↦ h.informed_receive hreceiver hjk⟩
    show Listener.Informed (s.shared.receive r).2
      (.waits (if (s.shared.receive r).1 = .empty then .on r else .over))
    rcases h.receive_cases r with ⟨hfound, -⟩ | ⟨hfound, -, hone⟩
    · rw [hk] at hinformed
      rwa [hfound]
    · rw [hfound]
      exact h.phase.eq_true (by omega)

variable [DecidableEq ι] {e : Event ι κ}

/-- **The invariant is kept by every step.** -/
theorem step (h : Invariant τ s) (hstep : Step s e s') : Invariant (e :: τ) s' := by
  cases hstep with
  | raise hi =>
    refine ⟨h.phase.raise hi, h.apart, h.recorded.raise _, fun k ↦ ?_⟩
    exact (h.informed k).mono (fun _ ↦ rfl) fun _ ↦ id
  | send hi =>
    refine ⟨h.phase.send hi, h.apart, h.recorded.send _, fun k ↦ ?_⟩
    exact (h.informed k).mono id fun _ ↦ id
  | subscribe => exact h.subscribe rfl trivial
  | attach => exact h.subscribe rfl trivial
  | look hk => exact h.look hk
  | await hk => exact h.await hk
  | receive hk => exact h.receive hk

theorem run (h : Run initial τ s) : Invariant τ s := by
  induction h with
  | start => exact start
  | step _ hstep ih => exact ih.step hstep

end Invariant

variable [DecidableEq ι] [DecidableEq κ]

/-- **Shutdown is seen by everyone, once.** However the steps of any number of calls and of any
number of tasks follow on each other:

* as soon as a call was made, one of them is the first, and it alone; no more than one signal is
  sent, and it was sent if a call has returned that it was the first;
* once it has, whoever waits finds a signal, and is done;
* nobody is done before the flag is up;
* a receiver finds as many signals, with those that it has found before, as were sent since it was
  made, and never that it has missed one. -/
theorem seen_once {τ : List (Event ι κ)} {s : System ι κ} (h : Run initial τ s) :
    ((∃ i, s.callers i ≠ .idle) → ∃! i, (s.callers i).IsFirst) ∧
    (sends τ ≤ 1 ∧ (sends τ = 1 ↔ ∃ i, s.callers i = .returned true)) ∧
    ((∃ i, s.callers i = .returned true) → ∀ k r, s.listeners k = .waits (.on r) →
      (s.shared.receive r).1 = .signal ∧ (s.shared.await (.on r)).1 = .over) ∧
    (∀ k, s.listeners k = .waits .over → s.shared.triggered = true) ∧
    (∀ r n, sentBefore? r τ = some n →
      (s.shared.receive r).1 = .signal ∧ n + taken r τ + 1 = sends τ ∨
      (s.shared.receive r).1 = .empty ∧ n + taken r τ = sends τ) ∧
    ∀ k r, .receive k r .lagged ∉ τ := by
  have hinv := Invariant.run h
  have hsent := hinv.recorded.sent
  refine ⟨hinv.phase.existsUnique, ⟨?_, ?_⟩, ?_, ?_, ?_, hinv.recorded.kept⟩
  · rw [← hsent]
    exact hinv.phase.le_one
  · rw [← hsent]
    exact hinv.phase.eq_one_iff
  · intro hfirst k r hk
    have hone := hinv.phase.eq_one_iff.mpr hfirst
    have hinformed := hinv.informed k
    rw [hk] at hinformed
    have hget : s.shared.receivers[r]? = some 0 := hinformed
    rcases hinv.receive_cases r with ⟨-, hall⟩ | ⟨hfound, -⟩
    · exact absurd (hall 0 hget) (by omega)
    · rw [await_on, hfound]
      exact ⟨rfl, rfl⟩
  · intro k hk
    have hinformed := hinv.informed k
    rw [hk] at hinformed
    exact hinformed
  · intro r n hbefore
    have hget : s.shared.receivers[r]? = some (n + taken r τ) := by
      rw [hinv.recorded.passed r, hbefore, Option.map_some]
    rcases hinv.receive_cases r with ⟨hfound, hall⟩ | ⟨hfound, hzero, hone⟩
    · exact Or.inr ⟨by rw [hfound], by rw [hall _ hget, hsent]⟩
    · rw [hget, Option.some.injEq] at hzero
      exact Or.inl ⟨by rw [hfound], by omega⟩

/-- A task begins to wait, another one comes between the flag and the signal. -/
theorem seen_once_between : ∃ s : System (Fin 2) (Fin 2),
    Run initial [.send 0, .raise 1, .subscribe 1 1, .raise 0, .look 0, .subscribe 0 0] s ∧
    s.callers 0 = .returned true ∧ s.callers 1 = .returned false ∧
    s.listeners 0 = .waits (.on 0) ∧ s.listeners 1 = .subscribed 1 ∧
    (∃! i, (s.callers i).IsFirst) ∧ (s.shared.await (.on 0)).1 = .over ∧
    ((s.shared.receive 1).1 = .signal ∧ 0 + 0 + 1 = 1 ∨
      (s.shared.receive 1).1 = .empty ∧ 0 + 0 = 1) := by
  have hstart : Run initial [] (initial : System (Fin 2) (Fin 2)) := .start
  have hwaits := hstart.step (Step.subscribe (k := 0) rfl) |>.step (Step.look (k := 0) rfl)
  have hbetween := hwaits.step (Step.raise (i := 0) rfl) |>.step (Step.subscribe (k := 1) rfl)
  have hrun := hbetween.step (Step.raise (i := 1) rfl) |>.step (Step.send (i := 0) rfl)
  have hseen := seen_once hrun
  exact ⟨_, hrun, rfl, rfl, rfl, rfl, hseen.1 ⟨0, nofun⟩,
    (hseen.2.2.1 ⟨0, rfl⟩ 0 0 rfl).2, hseen.2.2.2.2.1 1 0 rfl⟩

end System

end Redirector.Shutdown
