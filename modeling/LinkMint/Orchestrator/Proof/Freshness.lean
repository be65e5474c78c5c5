import LinkMint.Lib.CallLog
import LinkMint.Orchestrator.Proof.Mirror

/-!
# What a read returns after it has asked the chain

`Get` reads the payment, then the chain, then reconciles; other requests run in between. If one
of them has brought the payment to its final state first, `Reconcile` changes nothing and `Get`
returns the payment it read at the start.
-/

namespace LinkMint.Orchestrator

open LinkMint.Lib

section
variable {σ : Type} (format : Time → String) (S : Store σ) (moves : List (Move Request Choice Settlement)) (n : Nat)

structure ReadsFinal (id : String) (p : Payment) (next : State) : Prop where
  returned : ((system format S).exec { store := S.empty } moves).returned? n = some (.get id, .got (.ok p))
  chainRead : ∃ payLinkID status, ⟨.payLinkStatus payLinkID, .ok (some status)⟩ ∈
    ((system format S).events n { store := S.empty } moves).map Event.made ∧ fromChainStatus status = some next
  terminal : isTerminal next
  succeeded : ∀ payLinkID status m, ⟨.reconcile payLinkID status, .error m⟩ ∉
    ((system format S).events n { store := S.empty } moves).map Event.made

def FirstToReconcile : Prop :=
  ∀ e ∈ (system format S).events n { store := S.empty } moves, ∀ payLinkID status, e.call = .reconcile payLinkID status →
    ∀ q, S.getPaymentByPayLink e.before.store payLinkID = some q → ¬ isTerminal q.status
end

structure Reconciles {σ : Type} (format : Time → String) (S : Store σ) : Prop where
  reconcile : ∀ s payLinkID status now q, S.getPaymentByPayLink s payLinkID = some q → ∀ next,
    fromChainStatus status = some next → isTerminal next → ¬ isTerminal q.status →
      (S.reconcile s payLinkID (fun cur => project cur status) now).1 = .done { q with status := next, updatedAt := now } true
  kept : ∀ moves more id p, S.getPayment ((system format S).exec { store := S.empty } moves).shared.store id = some p →
      ∃ q, S.getPaymentByPayLink ((system format S).exec { store := S.empty } (moves ++ more)).shared.store p.payLinkID = some q

theorem project_final {current next : State} {status : String} (hstatus : fromChainStatus status = some next)
    (hterminal : isTerminal next) (hcurrent : ¬ isTerminal current) : project current status = .ok (next, true) := by
  cases current with
  | settled | cancelled | failed => exact absurd rfl hcurrent
  | awaitingPayment =>
    cases next with
    | awaitingPayment => cases hterminal
    | settled | cancelled | failed => simp [project, hstatus, transitions]

theorem postgres_reconciles (format : Time → String) : Reconciles format Postgres.store where
  reconcile s payLinkID status now q hq next hstatus hterminal hcurrent := by
    change (Postgres.reconcile s payLinkID _ now).1 = _
    rw [Postgres.reconcile, show Postgres.getPaymentByPayLink s payLinkID = some q from hq]
    simp [project_final hstatus hterminal hcurrent]
  kept moves more id p hp := by
    have hsound : SoundOn format _ := soundOn_exec moves
    obtain ⟨hmem, -⟩ := (Mirrors.keyed hsound.inv).getPayment_iff.mp hp
    obtain ⟨hsound', hfollows⟩ := hsound.run more
    obtain ⟨q, hq, hpq⟩ := hfollows p hmem
    rw [System.exec_append]
    exact ⟨q, (Mirrors.keyed hsound'.inv).getPaymentByPayLink_iff.mpr ⟨hq, hpq.payLinkID⟩⟩

theorem memory_reconciles (format : Time → String) : Reconciles format Memory.store where
  reconcile s payLinkID status now q hq next hstatus hterminal hcurrent := by
    change (Memory.reconcile s payLinkID _ now).1 = _
    rw [Memory.reconcile, show Memory.getPaymentByPayLink s payLinkID = some q from hq]
    simp [project_final hstatus hterminal hcurrent]
  kept moves more id p hp := by
    have hsame := (Memory.exec_same format moves).1.store
    have hsame' := (Memory.exec_same format (moves ++ more)).1.store
    obtain ⟨q, hq⟩ := (postgres_reconciles format).kept moves more id p ((hsame.getPayment id).symm.trans hp)
    exact ⟨q, (hsame'.getPaymentByPayLink p.payLinkID).trans hq⟩

section
variable {σ : Type} {format : Time → String} {S : Store σ} {moves : List (Move Request Choice Settlement)} {n : Nat}

theorem of_reconciled_path {p : Payment} {a : Except String Advance} {r : Payment × Bool} {log : List (Σ i, Op.Answer i)}
    (h : Prog.Path (match a with
      | .error _ | .ok .notFound | .ok (.illegal _) => pure (p, false)
      | .ok (.done updated changed) =>
        if changed then do
          afterTransition updated
          return (updated, changed)
        else return (updated, changed) : Proc (Payment × Bool)) log (.ret r)) :
    (∀ x ∈ log, ∃ name q, x.1 = .publish name q) ∧ ∀ q, a = .ok (.done q true) → r = (q, true) := by
  split at h
  · obtain ⟨rfl, -⟩ := Prog.Path.of_ret h
    exact ⟨by simp, fun q hq => by cases hq⟩
  · obtain ⟨rfl, -⟩ := Prog.Path.of_ret h
    exact ⟨by simp, fun q hq => by cases hq⟩
  · obtain ⟨rfl, -⟩ := Prog.Path.of_ret h
    exact ⟨by simp, fun q hq => by cases hq⟩
  · next updated changed =>
    split at h
    · next hchanged =>
      obtain ⟨u, log₁, log₂, rfl, hafter, hret⟩ := Prog.Path.of_bind_ret h
      obtain ⟨rfl, hret⟩ := Prog.Path.of_ret hret
      cases hret
      refine ⟨?_, fun q hq => by cases hq; rfl⟩
      unfold afterTransition at hafter
      split at hafter
      · obtain ⟨rfl, -⟩ := Prog.Path.of_ret hafter
        simp
      · next name _ =>
        cases hafter with
        | cons hafter =>
          obtain ⟨rfl, -⟩ := Prog.Path.of_ret hafter
          simp
    · next hchanged =>
      obtain ⟨rfl, -⟩ := Prog.Path.of_ret h
      exact ⟨by simp, fun q hq => by cases hq; exact absurd rfl hchanged⟩

theorem of_reconcile_path {p : Payment} {r : Payment × Bool} {log : List (Σ i, Op.Answer i)} {payLinkID status : String}
    (h : (reconcile p).Path log (.ret r)) (hread : ⟨.payLinkStatus payLinkID, .ok (some status)⟩ ∈ log) :
    ∃ a first rest, log = first ++ ⟨.reconcile p.payLinkID status, a⟩ :: rest ∧
      ∀ q, a = .ok (.done q true) → r = (q, true) := by
  unfold reconcile at h
  split at h
  · obtain ⟨rfl, -⟩ := Prog.Path.of_ret h
    cases hread
  · rcases Prog.Path.of_op h with ⟨rfl, -⟩ | ⟨answer, log, rfl, hasked⟩
    · cases hread
    split at hasked
    · obtain ⟨rfl, -⟩ := Prog.Path.of_ret hasked
      cases List.mem_singleton.mp hread
    · obtain ⟨rfl, -⟩ := Prog.Path.of_ret hasked
      cases List.mem_singleton.mp hread
    · next status' =>
      rcases Prog.Path.of_op hasked with ⟨-, hret⟩ | ⟨a, rest, rfl, hdone⟩
      · cases hret
      obtain ⟨hquiet, hreturned⟩ := of_reconciled_path hdone
      -- the chain is asked once
      have hstatus : status' = status := by
        rcases List.mem_cons.mp hread with heq | hread
        · cases heq
          rfl
        · rcases List.mem_cons.mp hread with heq | hread
          · cases heq
          · obtain ⟨name, q, heq⟩ := hquiet _ hread
            cases heq
      subst hstatus
      exact ⟨a, [_], rest, rfl, hreturned⟩

theorem serveRead_eq_ok {w w' : World σ} {x : Option Payment} {p : Payment} {e : Choice}
    (h : serveRead w x e = some (.ok (some p), w')) : x = some p := by
  cases e with
  | ok =>
    cases h
    rfl
  | _ => cases h

theorem serveAdvance_eq_some {w w' : World σ} {advance : Time → Advance × σ} {e : Choice} {a : Except String Advance}
    (h : serveAdvance n w advance e = some (a, w')) : (∃ m, a = .error m) ∨ ∃ t, a = .ok (advance t).1 := by
  cases e with
  | time t =>
    refine .inr ⟨t, ?_⟩
    unfold serveAdvance at h
    dsimp only at h
    split at h
    · next hadvance =>
      cases h
      rw [hadvance]
    · next hadvance =>
      cases h
      rw [hadvance]
  | failed m =>
    cases h
    exact .inl ⟨m, rfl⟩
  | _ => cases h

theorem ReadsFinal.status_eq {id : String} {p : Payment} {next : State} (h : ReadsFinal format S moves n id p next)
    (hS : Reconciles format S) (hfirst : FirstToReconcile format S moves n) : p.status = next := by
  obtain ⟨payLinkID, status, hread, hstatus⟩ := h.chainRead
  have hpath := ((system format S).path { store := S.empty } moves n).1 _ _ (Config.returned?_eq_some h.returned)
  obtain ⟨r, log₁, log₂, hlog, hget, hret⟩ := Prog.Path.of_bind_ret hpath
  obtain ⟨rfl, hret⟩ := Prog.Path.of_ret hret
  cases hret
  rw [List.append_nil] at hlog
  rw [hlog] at hread
  rcases Prog.Path.of_op hget with ⟨-, hret⟩ | ⟨stored, log, rfl, hrest⟩
  · cases hret
  replace hread : ⟨.payLinkStatus payLinkID, .ok (some status)⟩ ∈ log := by
    rcases List.mem_cons.mp hread with heq | hread
    · cases heq
    · exact hread
  split at hrest
  · cases (Prog.Path.of_ret hrest).2
  · cases (Prog.Path.of_ret hrest).2
  · next p₀ =>
    obtain ⟨⟨updated, changed⟩, log₁, log₂, rfl, hreconcile, hret⟩ := Prog.Path.of_bind_ret hrest
    obtain ⟨rfl, hret⟩ := Prog.Path.of_ret hret
    cases hret
    rw [List.append_nil] at hread hlog
    obtain ⟨a, first, rest, rfl, hreturned⟩ := of_reconcile_path hreconcile hread
    -- the call to `Reconcile`, in the configuration it was made in
    obtain ⟨evs, evs', hevs, hpre, hpost⟩ := List.map_eq_append_iff.mp
      (hlog.trans (List.cons_append (a := (⟨.getPayment id, .ok (some p₀)⟩ : Σ i, Op.Answer i))).symm)
    obtain ⟨ev, evs'', rfl, hmade, -⟩ := List.map_eq_cons_iff.mp hpost
    obtain ⟨world, choice, w, rfl⟩ := Event.of_made hmade
    obtain ⟨before, after, hmoves, hbefore, hworld, r, k, -, hserve⟩ := System.of_events_eq hevs
    dsimp only at hworld hserve
    subst hworld
    obtain ⟨q, hq⟩ : ∃ q, S.getPaymentByPayLink ((system format S).exec { store := S.empty } before).shared.store
        p₀.payLinkID = some q := by
      have hmem : ⟨.getPayment id, .ok (some p₀)⟩ ∈ ((system format S).events n { store := S.empty } before).map Event.made := by
        rw [hbefore, hpre]
        exact List.mem_cons_self
      obtain ⟨earlier, choice, later, r, w, rfl, hserve, -⟩ := System.of_made hmem
      exact hS.kept earlier _ id p₀ (serveRead_eq_ok hserve)
    have hopen := hfirst _ (hevs ▸ List.mem_append_right _ List.mem_cons_self) _ _ rfl q hq
    obtain ⟨m, rfl⟩ | ⟨t, rfl⟩ := serveAdvance_eq_some hserve
    · refine absurd ?_ (h.succeeded p₀.payLinkID status m)
      rw [hlog]
      simp
    · obtain ⟨rfl, rfl⟩ := Prod.mk.inj (hreturned _ (congrArg Except.ok
        (hS.reconcile _ _ status t q hq next hstatus h.terminal hopen)))
      rfl
end

/-- **A read is not older than the chain it asked**, unless another request has settled the payment first. -/
theorem get_follows_chain (format : Time → String) (moves : List (Move Request Choice Settlement)) (n : Nat)
    (id : String) (p : Payment) (next : State) :
    (ReadsFinal format Postgres.store moves n id p next → FirstToReconcile format Postgres.store moves n → p.status = next) ∧
      (ReadsFinal format Memory.store moves n id p next → FirstToReconcile format Memory.store moves n → p.status = next) :=
  ⟨fun h hfirst => h.status_eq (postgres_reconciles format) hfirst,
    fun h hfirst => h.status_eq (memory_reconciles format) hfirst⟩

/-! ## Two schedules -/

namespace Reading
def payLinkID : String := "0x1111111111111111111111111111111111111111111111111111111111111111"

def opening : List (Move Request Choice Settlement) :=
  [.start (.initiate payLinkID "mpesa"), .run 0 (.payLink (some ⟨"CREATED", none⟩)), .run 0 (.time 0), .run 0 (.id "p"),
    .run 0 .ok, .run 0 .ok, .start (.get "p"), .run 1 .ok, .drift ⟨payLinkID, .verified⟩, .run 1 (.status (some "VERIFIED"))]

def alone : List (Move Request Choice Settlement) := opening ++ [.run 1 (.time 1), .run 1 .ok]

def overtaken : List (Move Request Choice Settlement) :=
  opening ++ [.start (.get "p"), .run 2 .ok, .run 2 (.status (some "VERIFIED")), .run 2 (.time 1), .run 2 .ok, .run 1 (.time 2)]

abbrev sys : System Op Op.Answer Request (World Postgres.Tables) Choice Settlement Response :=
  system (fun _ => "") Postgres.store

def settles : (Σ i, Op.Answer i) → Bool
  | ⟨.payLinkStatus _, .ok (some status)⟩ => fromChainStatus status = some .settled
  | _ => false

def fails : (Σ i, Op.Answer i) → Bool
  | ⟨.reconcile _ _, .error _⟩ => true
  | _ => false

def isReconcile : Op → Bool
  | .reconcile _ _ => true
  | _ => false

def got : Option (Request × Response) → Option (String × Payment)
  | some (.get id, .got (.ok p)) => some (id, p)
  | _ => none

theorem readsFinal {moves : List (Move Request Choice Settlement)} {p : Payment}
    (hgot : got ((sys.exec { store := {} } moves).returned? 1) = some ("p", p))
    (hread : ((sys.events 1 { store := {} } moves).map Event.made).any settles = true)
    (hok : ((sys.events 1 { store := {} } moves).map Event.made).any fails = false) :
    ReadsFinal (fun _ => "") Postgres.store moves 1 "p" p .settled where
  returned := by
    unfold got at hgot
    split at hgot
    · next h =>
      cases hgot
      exact h
    · cases hgot
  chainRead := by
    obtain ⟨x, hx, hsettles⟩ := List.any_eq_true.mp hread
    unfold settles at hsettles
    split at hsettles
    · exact ⟨_, _, hx, of_decide_eq_true hsettles⟩
    · cases hsettles
  terminal := rfl
  succeeded payLinkID status m hmem := by
    cases hok.symm.trans (List.any_eq_true.mpr ⟨_, hmem, rfl⟩)

def initiated : Payment :=
  { id := "p", payLinkID, rail := "mpesa", status := .awaitingPayment, createdAt := 0, updatedAt := 0 }
end Reading

theorem get_follows_chain_alone :
    ReadsFinal (fun _ => "") Postgres.store Reading.alone 1 "p" { Reading.initiated with status := .settled, updatedAt := 1 }
        .settled ∧
      FirstToReconcile (fun _ => "") Postgres.store Reading.alone 1 ∧
      { Reading.initiated with status := .settled, updatedAt := 1 }.status = .settled := by
  have hread : ReadsFinal (fun _ => "") Postgres.store Reading.alone 1 "p"
      { Reading.initiated with status := .settled, updatedAt := 1 } .settled :=
    Reading.readsFinal (by decide +kernel) (by decide +kernel) (by decide +kernel)
  have hfirst : FirstToReconcile (fun _ => "") Postgres.store Reading.alone 1 := by
    have hall : ((Reading.sys.events 1 { store := {} } Reading.alone).all fun e =>
        !Reading.isReconcile e.call || e.before.store.payments.all fun q => !isTerminal q.status) = true := by decide +kernel
    intro e he payLinkID status hcall q hq hterminal
    have hrows := List.all_eq_true.mp hall e he
    rw [hcall, Reading.isReconcile, Bool.not_true, Bool.false_or] at hrows
    have hrow := List.all_eq_true.mp hrows q (Postgres.mem_of_getPaymentByPayLink hq).1
    rw [hterminal] at hrow
    cases hrow
  exact ⟨hread, hfirst, (get_follows_chain _ _ _ _ _ _).1 hread hfirst⟩

theorem get_overtaken : ReadsFinal (fun _ => "") Postgres.store Reading.overtaken 1 "p" Reading.initiated .settled ∧
      Reading.initiated.status = .awaitingPayment :=
  ⟨Reading.readsFinal (by decide +kernel) (by decide +kernel) (by decide +kernel), rfl⟩

end LinkMint.Orchestrator
