import Lobbyboy.Daemon.Threads

/-! Who destroys a server twice. The threads take their steps as before, and each call of
`destroy_server` now has an outcome. The killer judges what it loaded at the start of its
round, a session the server it has left, and neither looks into the database again. -/

namespace Lobbyboy.Daemon

open Foundation Config Provider

/-- How `destroy_server` ends: with `True`, with `False`, or with an exception. -/
inductive Outcome where
  | succeeded | refused | raised
  deriving DecidableEq

/-- The threads, the servers on which a call has succeeded since they were created, and
whether an exception has ended the killer. -/
structure Ledger where
  threads : State
  succeeded : List LBServerMeta := []
  killerDead : Bool := false

inductive LedgerAction where
  | take (a : Action)
  | call (t : Thread) (outcome : Outcome)

namespace Ledger

variable (providers : Providers) (l : Ledger)

/-- The step belongs to a killer that has ended. -/
def blocks (l : Ledger) : Action → Bool
  | .round | .judge .killer _ _ => l.killerDead
  | _ => false

/-- The servers that are still destroyed after the step: one made anew is not. -/
def stillSucceeded (l : Ledger) : Action → List LBServerMeta
  | .create _ m => l.succeeded.filter (· ≠ m)
  | _ => l.succeeded

/-- A thread whose call raises is done with the server; the killer is done altogether. -/
def callDestroy (t : Thread) (m : LBServerMeta) : Outcome → State → Ledger
  | .succeeded, s => { l with threads := s, succeeded := m :: l.succeeded }
  | .refused, s => { l with threads := s }
  | .raised, s => { l with threads := s.setVerdict t .none
                           killerDead := l.killerDead || t == .killer }

def step : LedgerAction → Option Ledger
  | .take (.callDestroy _) => none
  | .take a =>
    if l.blocks a then none
    else (Daemon.step providers l.threads a).map fun s =>
      { l with threads := s, succeeded := l.stillSucceeded a }
  | .call t outcome =>
    match l.threads.verdict t with
    | .condemned m =>
      (Daemon.step providers l.threads (.callDestroy t)).map (l.callDestroy t m outcome)
    | _ => none

/-- `destroy_server` is not called on a server on which a call has succeeded. -/
def Once (l : Ledger) : LedgerAction → Prop
  | .call t _ => ∀ m, l.threads.verdict t = .condemned m → m ∉ l.succeeded
  | .take _ => True

/-- `need_destroy` answers `True` only for a server that is recorded and that no thread is
about to destroy or to delete. -/
def Sole (l : Ledger) : LedgerAction → Prop
  | .take (.judge t now₁ now₂) => ∀ m, l.threads.toJudge t = some m →
      verdictOn providers l.threads.activeSession m now₁ now₂ = some true →
      l.threads.db.get? m.serverName = some m ∧ ∀ t', (l.threads.verdict t').server ≠ some m
  | _ => True

end Ledger

/-! ### The invariant -/

variable {providers : Providers} {s s' : State} {gone : List LBServerMeta}

/-- A thread that is about to call `destroy_server` is the only one concerned with that
server, and no call on it has succeeded; where a destroyed server is still recorded, the
deletion is to come. -/
structure Accounted (s : State) (gone : List LBServerMeta) : Prop where
  sole : ∀ t t' m, s.verdict t = .condemned m → (s.verdict t').server = some m → t' = t
  uncalled : ∀ t m, s.verdict t = .condemned m → m ∉ gone
  unfinished : ∀ m ∈ gone, s.db.get? m.serverName = some m → ∃ t, s.verdict t = .called m

namespace Accounted

/-- Only the database and the verdicts matter. -/
theorem congr (h : Accounted s gone) (hdb : s'.db = s.db) (hverdict : s'.verdict = s.verdict) :
    Accounted s' gone := by
  constructor
  · rw [hverdict]; exact h.sole
  · rw [hverdict]; exact h.uncalled
  · rw [hdb, hverdict]; exact h.unfinished

/-- A thread gives up its verdict, and what it leaves in the database was there before and
not its to delete. -/
theorem release (h : Accounted s gone) {t : Thread} {db : ServerMap}
    (hdb : ∀ m ∈ gone, db.get? m.serverName = some m →
      s.db.get? m.serverName = some m ∧ s.verdict t ≠ .called m) :
    Accounted { s.setVerdict t .none with db := db } gone := by
  have hverdict : ∀ t', ({ s.setVerdict t .none with db := db } : State).verdict t' =
      if t' = t then .none else s.verdict t' := fun t' => s.setVerdict_verdict t t' .none
  constructor
  case sole =>
    intro t₁ t₂ m h₁ h₂
    rw [hverdict] at h₁ h₂
    split_ifs at h₁ h₂
    · cases h₂
    · exact h.sole t₁ t₂ m h₁ h₂
  case uncalled =>
    intro t₁ m h₁
    rw [hverdict] at h₁
    split_ifs at h₁
    exact h.uncalled t₁ m h₁
  case unfinished =>
    intro m hm hrec
    obtain ⟨hrec, hnot⟩ := hdb m hm hrec
    obtain ⟨t', ht'⟩ := h.unfinished m hm hrec
    refine ⟨t', ?_⟩
    rw [hverdict, if_neg, ht']
    rintro rfl
    exact hnot ht'

/-- A thread that has called nothing gives up its verdict. -/
theorem acquit (h : Accounted s gone) {t : Thread} (ht : ∀ m, s.verdict t ≠ .called m) :
    Accounted (s.setVerdict t .none) gone :=
  h.release fun m _ hrec => ⟨hrec, ht m⟩

theorem delete (h : Accounted s gone) {t : Thread} {m : LBServerMeta}
    (ht : s.verdict t = .called m) :
    Accounted { s.setVerdict t .none with db := mergeServers s.db [] [m] } gone := by
  refine h.release fun m' _ hrec => ?_
  rw [mergeServers_deleted, OrderedDict.get?_erase] at hrec
  split_ifs at hrec with hname
  refine ⟨hrec, fun ht' => ?_⟩
  cases ht.symm.trans ht'
  exact hname rfl

/-- A `True` verdict on a recorded server that nobody else is concerned with. -/
theorem condemn (h : Accounted s gone) {t : Thread} {m : LBServerMeta} (ht : s.verdict t = .none)
    (hrec : s.db.get? m.serverName = some m) (hsole : ∀ t', (s.verdict t').server ≠ some m) :
    Accounted (s.setVerdict t (.condemned m)) gone := by
  have hgone : m ∉ gone := by
    intro hm
    obtain ⟨t', ht'⟩ := h.unfinished m hm hrec
    exact hsole t' (by rw [ht']; rfl)
  constructor
  case sole =>
    intro t₁ t₂ m' h₁ h₂
    rw [State.setVerdict_verdict] at h₁ h₂
    split_ifs at h₁ h₂ with e₁ e₂ e₂
    · rw [e₁, e₂]
    · cases h₁
      exact absurd h₂ (hsole t₂)
    · cases h₂
      exact absurd (by rw [h₁]; rfl) (hsole t₁)
    · exact h.sole t₁ t₂ m' h₁ h₂
  case uncalled =>
    intro t₁ m' h₁
    rw [State.setVerdict_verdict] at h₁
    split_ifs at h₁
    · cases h₁
      exact hgone
    · exact h.uncalled t₁ m' h₁
  case unfinished =>
    intro m' hm' hrec'
    obtain ⟨t', ht'⟩ := h.unfinished m' hm' hrec'
    refine ⟨t', ?_⟩
    rw [State.setVerdict_verdict, if_neg, ht']
    rintro rfl
    cases ht.symm.trans ht'

/-- The call returns, whatever it says; if it has succeeded, the server counts as
destroyed. -/
theorem called (h : Accounted s gone) {t : Thread} {m : LBServerMeta} {gone' : List LBServerMeta}
    (ht : s.verdict t = .condemned m) (hgone : ∀ m' ∈ gone', m' = m ∨ m' ∈ gone) :
    Accounted (s.setVerdict t (.called m)) gone' := by
  constructor
  case sole =>
    intro t₁ t₂ m' h₁ h₂
    rw [State.setVerdict_verdict] at h₁ h₂
    split_ifs at h₁ h₂ with e₁ e₂
    · cases h₂
      exact absurd (h.sole t₁ t m h₁ (by rw [ht]; rfl)).symm e₁
    · exact h.sole t₁ t₂ m' h₁ h₂
  case uncalled =>
    intro t₁ m' h₁ hm'
    rw [State.setVerdict_verdict] at h₁
    split_ifs at h₁ with e₁
    rcases hgone m' hm' with rfl | hm'
    · exact e₁ (h.sole t t₁ m' ht (by rw [h₁]; rfl))
    · exact h.uncalled t₁ m' h₁ hm'
  case unfinished =>
    intro m' hm' hrec
    rcases hgone m' hm' with rfl | hm'
    · exact ⟨t, by simp⟩
    · obtain ⟨t', ht'⟩ := h.unfinished m' hm' hrec
      refine ⟨t', ?_⟩
      rw [State.setVerdict_verdict, if_neg, ht']
      rintro rfl
      cases ht.symm.trans ht'

/-- A server made anew is recorded and not destroyed. -/
theorem create (h : Accounted s gone) {i : ℕ} (m : LBServerMeta) :
    Accounted { s.setPhase i (.picked m) with
      db := mergeServers s.db [m] [], destroyed := s.destroyed.filter (· ≠ m) }
      (gone.filter (· ≠ m)) := by
  constructor
  case sole => exact h.sole
  case uncalled => exact fun t m' ht hm' => h.uncalled t m' ht (List.mem_of_mem_filter hm')
  case unfinished =>
    intro m' hm' hrec
    obtain ⟨hm', hne⟩ := List.mem_filter.mp hm'
    rw [mergeServers_new, OrderedDict.get?_insert] at hrec
    split_ifs at hrec
    · cases hrec
      simp at hne
    · exact h.unfinished m' hm' hrec

end Accounted

namespace Ledger

variable {l l' : Ledger} {a : LedgerAction}

theorem accounted_take {a : Action} (h : Accounted l.threads l.succeeded)
    (hsole : Sole providers l (.take a)) (hs : Stepped providers l.threads a s')
    (hcall : ∀ t, a ≠ .callDestroy t) : Accounted s' (l.stillSucceeded a) := by
  have hjudged : ∀ t, Accounted (l.threads.judged t) l.succeeded := by
    intro t
    cases t <;> exact h.congr rfl rfl
  have hverdict : ∀ {t m}, l.threads.toJudge t = some m →
      (l.threads.judged t).verdict t = .none := by
    intro t m ht
    rw [← toJudge_verdict ht]
    cases t <;> rfl
  cases hs with
  | connect | load | pick | redirect | register | round => exact h.congr rfl rfl
  | create phase => exact h.create _
  | @remove i m phase =>
    obtain ⟨d, hd, -⟩ := (l.threads.leave i (.left m)).removeServerSession_eq i m.serverName
    rw [hd]
    exact h.congr rfl rfl
  | @fail i notCalled =>
    have hleave : Accounted (l.threads.leave i .ended) l.succeeded := h.congr rfl rfl
    exact hleave.acquit notCalled
  | @keep t m _ _ toJudge =>
    refine (hjudged t).acquit fun m' hm' => ?_
    cases (hverdict toJudge).symm.trans hm'
  | @condemn t m now₁ now₂ toJudge verdict =>
    obtain ⟨hrec, hothers⟩ := hsole m toJudge verdict
    refine (hjudged t).condemn (hverdict toJudge) ?_ ?_
    · cases t <;> exact hrec
    · cases t <;> exact hothers
  | @callDestroy t => exact absurd rfl (hcall t)
  | delete verdict => exact h.delete verdict

theorem accounted_call {t : Thread} {m : LBServerMeta} (h : Accounted l.threads l.succeeded)
    (ht : l.threads.verdict t = .condemned m) (outcome : Outcome) :
    let l' := l.callDestroy t m outcome
      { l.threads.setVerdict t (.called m) with destroyed := m :: l.threads.destroyed }
    Accounted l'.threads l'.succeeded := by
  cases outcome with
  | succeeded =>
    have hcalled : Accounted (l.threads.setVerdict t (.called m)) (m :: l.succeeded) :=
      h.called ht fun m' hm' => List.mem_cons.mp hm'
    exact hcalled.congr rfl rfl
  | refused => exact (h.called ht fun m' hm' => .inr hm').congr rfl rfl
  | raised =>
    have hacquit : Accounted (l.threads.setVerdict t .none) l.succeeded := by
      refine h.acquit fun m' hm' => ?_
      cases ht.symm.trans hm'
    refine hacquit.congr rfl ?_
    exact Function.update_idem ..

theorem accounted_step (h : Accounted l.threads l.succeeded) (hsole : Sole providers l a)
    (hs : step providers l a = some l') : Accounted l'.threads l'.succeeded := by
  cases a with
  | take a =>
    by_cases hcall : ∃ t, a = .callDestroy t
    · obtain ⟨t, rfl⟩ := hcall
      cases hs
    · rw [not_exists] at hcall
      have hs' : step providers l (.take a) = if l.blocks a then none
          else (Daemon.step providers l.threads a).map fun s =>
            { l with threads := s, succeeded := l.stillSucceeded a } := by
        cases a with
        | callDestroy t => exact absurd rfl (hcall t)
        | _ => rfl
      rw [hs'] at hs
      split_ifs at hs
      obtain ⟨s, hstep, rfl⟩ := Option.map_eq_some_iff.mp hs
      exact accounted_take h hsole (stepped_of_step hstep) hcall
  | call t outcome =>
    simp only [step] at hs
    split at hs
    · next m ht =>
      simp only [Daemon.step, ht, Option.map_some, Option.some.injEq] at hs
      subst hs
      exact accounted_call h ht outcome
    · cases hs

/-- In a run in which only recorded servers that nobody else is concerned with get a `True`
verdict, `destroy_server` is never called on a destroyed server. -/
theorem once_of_sole (providers : Providers) (db : ServerMap) (as : List LedgerAction)
    (h : Along (step providers) (Sole providers) { threads := { db } } as) :
    Along (step providers) (fun l a => Once l a) { threads := { db } } as := by
  refine along_of_invariant (P := fun l => Accounted l.threads l.succeeded)
    (fun hc hl hs => accounted_step hl hc hs) ?_ h ⟨nofun, nofun, nofun⟩
  intro l a _ hl
  cases a with
  | take a => trivial
  | call t outcome => exact fun m ht => hl.uncalled t m ht

/-- Two sessions leave a server each at the same time, and both destroy theirs; the killer
finds nothing in its next round. -/
theorem once_of_sole_two :
    let a : LBServerMeta :=
      { providerName := "p", workspace := .parse "/p/a", serverName := "a", createdTimestamp := 0 }
    let b : LBServerMeta := { a with workspace := .parse "/p/b", serverName := "b" }
    let providers : Providers :=
      .ofPairs [("p", ⟨"p", { minLifeToLive := some "0s" }, .parse "/p", .ignite {}⟩)]
    let use (i : ℕ) (m : LBServerMeta) : List LedgerAction := [.take (.connect i ("10.0.0.1", i)),
      .take (.load i), .take (.pick i m), .take (.redirect i), .take (.register i)]
    Along (step providers) (fun l a => Once l a)
      { threads := { db := .ofPairs [("a", a), ("b", b)] } }
      (use 0 a ++ use 1 b ++ [.take (.remove 0), .take (.remove 1),
        .take (.judge (.session 0) 60 60), .take (.judge (.session 1) 60 60),
        .call (.session 0) .succeeded, .call (.session 1) .succeeded,
        .take (.delete (.session 0)), .take (.delete (.session 1)), .take .round]) := by
  intro a b providers use
  have skip : ∀ {l l' : Ledger} {c : LedgerAction} {as : List LedgerAction},
      Sole providers l c → step providers l c = some l' →
        Along (step providers) (Sole providers) l' as →
          Along (step providers) (Sole providers) l (c :: as) :=
    fun hc hs h => (along_cons hs).mpr ⟨hc, h⟩
  refine once_of_sole providers _ _ ?_
  refine skip trivial rfl (skip trivial rfl (skip trivial rfl (skip trivial rfl ?_)))
  refine skip trivial rfl (skip trivial rfl (skip trivial rfl (skip trivial rfl ?_)))
  refine skip trivial rfl (skip trivial rfl (skip trivial rfl (skip trivial rfl ?_)))
  refine skip ?_ rfl (skip ?_ rfl ?_)
  · intro m hm _
    cases hm
    refine ⟨rfl, fun t ht => ?_⟩
    cases ht
  · intro m hm _
    cases hm
    refine ⟨rfl, fun t ht => ?_⟩
    cases t with
    | killer => cases ht
    | session i =>
      cases i with
      | zero =>
        -- the other session is about to destroy the other server
        have hother : a ≠ b := by decide
        exact hother (Option.some.inj ht)
      | succ i => cases ht
  refine skip trivial rfl (skip trivial rfl (skip trivial rfl (skip trivial rfl ?_)))
  exact skip trivial rfl trivial

/-- A session destroys the server it leaves while the killer's round still has it; and two
sessions that leave a server at the same time both destroy it. -/
theorem destroyed_twice :
    let a : LBServerMeta :=
      { providerName := "p", workspace := .parse "/p/a", serverName := "a", createdTimestamp := 0 }
    let providers : Providers :=
      .ofPairs [("p", ⟨"p", { minLifeToLive := some "0s" }, .parse "/p", .ignite {}⟩)]
    let use (i : ℕ) : List LedgerAction := [.take (.connect i ("10.0.0.1", i)), .take (.load i),
      .take (.pick i a), .take (.redirect i), .take (.register i)]
    ¬ Along (step providers) (fun l a => Once l a) { threads := { db := .ofPairs [("a", a)] } }
      (use 0 ++ [.take .round, .take (.remove 0), .take (.judge (.session 0) 60 60),
        .call (.session 0) .succeeded, .take (.delete (.session 0)), .take (.judge .killer 60 60),
        .call .killer .succeeded]) ∧
    ¬ Along (step providers) (fun l a => Once l a) { threads := { db := .ofPairs [("a", a)] } }
      (use 0 ++ use 1 ++ [.take (.remove 0), .take (.remove 1), .take (.judge (.session 0) 60 60),
        .take (.judge (.session 1) 60 60), .call (.session 0) .succeeded,
        .call (.session 1) .succeeded]) := by
  intro a providers use
  have skip : ∀ {l l' : Ledger} {b : LedgerAction} {as : List LedgerAction},
      Along (step providers) (fun l a => Once l a) l (b :: as) → step providers l b = some l' →
        Along (step providers) (fun l a => Once l a) l' as :=
    fun h hb => ((along_cons hb).mp h).2
  constructor
  · intro h
    have h := skip (skip (skip (skip (skip h rfl) rfl) rfl) rfl) rfl
    have h := skip (skip (skip (skip (skip (skip h rfl) rfl) rfl) rfl) rfl) rfl
    exact h.1 a rfl (List.mem_cons_self ..)
  · intro h
    have h := skip (skip (skip (skip (skip h rfl) rfl) rfl) rfl) rfl
    have h := skip (skip (skip (skip (skip h rfl) rfl) rfl) rfl) rfl
    have h := skip (skip (skip (skip (skip h rfl) rfl) rfl) rfl) rfl
    exact h.1 a rfl (List.mem_cons_self ..)

end Ledger

end Lobbyboy.Daemon
