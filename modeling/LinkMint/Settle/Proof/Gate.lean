import LinkMint.Lib.CallLog
import LinkMint.Settle.Proof.Once

/-!
# The gate in front of a settlement

What a submission must have been told before it sends, and what it has done when it is turned
away, are facts about its own calls.
-/

namespace LinkMint.Settle

open LinkMint.Lib LinkMint.Chain

abbrev Made := Σ i : Op, i.Answer

def Payable (p : Proof) (log : List Made) : Prop :=
  ∃ pl : PayLinkState, ⟨.getPayLink p.payLinkID, .result pl⟩ ∈ log ∧ pl.status = "CREATED" ∧
    pl.amount = p.amount ∧ (pl.expiry = 0 ∨ ∃ now : Int64, ⟨.now, now⟩ ∈ log ∧ ¬ pl.expiry < now)

theorem Payable.mono {p : Proof} {log log' : List Made} (h : Payable p log) (hsub : log ⊆ log') : Payable p log' := by
  obtain ⟨pl, hmem, hstatus, hamount, hexpiry⟩ := h
  refine ⟨pl, hsub hmem, hstatus, hamount, hexpiry.imp_right ?_⟩
  rintro ⟨now, hnow, hlt⟩
  exact ⟨now, hsub hnow, hlt⟩

structure Gated (D : Deployment) (p : Proof) (tx : SettlementTx) (before : List Made) : Prop where
  shape : validateShape p = .ok ()
  signed : ∃ sig, p.signatureBytes? = some sig ∧
    ∃ key ∈ D.trusted, verify D.env (D.env.sha256 (canonicalBytes p)) sig key = true
  payLinkID : tx.payLinkID = hexToHash p.payLinkID
  proofHash : tx.proofHash = p.hash D.env
  unused : ⟨.isProofUsed (p.hash D.env), .result false⟩ ∈ before
  payable : D.crossCheck = true → Payable p before

inductive Rejected (D : Deployment) (p : Proof) (log : List Made) : GoError → Prop
  | shape {e : AppError ErrorCode} (h : validateShape p = .error e) : Rejected D p log (.app e)
  | signature {e : AppError ErrorCode} (h : verifyProof D.env D.trusted p = .error e) : Rejected D p log (.app e)
  | crossCheck {e : GoError} (calls : List Made) (last : calls <:+ log)
      (h : (Service.crossCheckPayLink p).Path calls (.ret (.error e))) : Rejected D p log e

def Op.Looks : Op → Prop
  | .isProofUsed _ | .getPayLink _ | .now => True
  | _ => False

section Paths

variable {D : Deployment} {p : Proof}

theorem chainErr_ok {α : Type} {reply : Rpc α} {a : α} (h : chainErr reply = .ok a) : reply = .result a := by
  cases reply with
  | result b =>
    cases h
    rfl
  | rpcError m => cases h
  | transport m => cases h

theorem foundPayLink_some {reply : Rpc PayLinkState} {pl : PayLinkState}
    (h : foundPayLink reply = .ok (some pl)) : reply = .result pl := by
  cases reply with
  | result b =>
    cases h
    rfl
  | rpcError m =>
    simp only [foundPayLink, chainErr] at h
    split at h
    · cases h
    · cases h
  | transport m => cases h

theorem crossCheckPayLink_only (p : Proof) : (Service.crossCheckPayLink p).Only Op.Looks := by
  refine Prog.Only.bind (Prog.Only.op trivial) fun reply => ?_
  cases foundPayLink reply with
  | error e => exact Prog.Only.ret _
  | ok found =>
    cases found with
    | none => exact Prog.Only.ret _
    | some pl =>
      dsimp only
      split_ifs
      · exact Prog.Only.ret _
      · exact Prog.Only.ret _
      · exact Prog.Only.ret _
      · refine Prog.Only.bind (Prog.Only.op trivial) fun now => ?_
        split_ifs
        · exact Prog.Only.ret _
        · exact Prog.Only.ret _

theorem of_pure_path {α : Type} {a b : α} {log : List Made} (h : (pure a : Proc α).Path log (.ret b)) : a = b := by
  obtain ⟨-, heq⟩ := Prog.Path.of_ret h
  exact (Prog.ret.inj heq).symm

theorem crossCheckPayLink_path {log : List Made}
    (h : (Service.crossCheckPayLink p).Path log (.ret (.ok ()))) : Payable p log := by
  rcases Prog.Path.of_op h with ⟨-, heq⟩ | ⟨reply, log', rfl, hrest⟩
  · cases heq
  · cases hfound : foundPayLink reply with
    | error e =>
      rw [hfound] at hrest
      cases of_pure_path hrest
    | ok found =>
      rw [hfound] at hrest
      cases found with
      | none => cases of_pure_path hrest
      | some pl =>
        obtain rfl := foundPayLink_some hfound
        dsimp only at hrest
        split_ifs at hrest with hstatus hamount hexpiry
        · cases of_pure_path hrest
        · cases of_pure_path hrest
        · exact ⟨pl, List.mem_cons_self, Decidable.not_not.mp hstatus, Decidable.not_not.mp hamount, .inl hexpiry⟩
        · rcases Prog.Path.of_op hrest with ⟨-, heq⟩ | ⟨now, log'', rfl, hlast⟩
          · cases heq
          · split_ifs at hlast with hlt
            · cases of_pure_path hlast
            · exact ⟨pl, List.mem_cons_self, Decidable.not_not.mp hstatus, Decidable.not_not.mp hamount,
                .inr ⟨now, List.mem_cons_of_mem _ List.mem_cons_self, hlt⟩⟩

def Op.Settles (D : Deployment) (p : Proof) : Op → Prop
  | .sendTransaction tx => tx.payLinkID = hexToHash p.payLinkID ∧ tx.proofHash = p.hash D.env
  | .isProofUsed _ | .getPayLink _ | .now => False
  | _ => True

def Op.Unsigned : Op → Prop
  | .sign _ => False
  | _ => True

theorem Op.Settles.not_looks {i : Op} (h : i.Settles D p) : ¬ i.Looks := by
  intro hlooks
  cases i with
  | isProofUsed k => exact h
  | getPayLink id => exact h
  | now => exact h
  | _ => exact hlooks

theorem reserve_only (a : Address) : (reserve a).Only fun i => i.Settles D p ∧ i.Unsigned := by
  refine Prog.Only.bind (Prog.Only.op ⟨trivial, trivial⟩) fun _ => ?_
  refine Prog.Only.bind (Prog.Only.op ⟨trivial, trivial⟩) fun reply => ?_
  cases chainErr reply with
  | error e => exact Prog.Only.bind (Prog.Only.op ⟨trivial, trivial⟩) fun _ => Prog.Only.ret _
  | ok chainNonce => exact Prog.Only.bind (Prog.Only.op ⟨trivial, trivial⟩) fun _ => Prog.Only.ret _

theorem broadcastSettlement_only :
    (Service.broadcastSettlement D (hexToHash p.payLinkID) (p.hash D.env)).Only fun i => i.Settles D p ∧ i.Unsigned := by
  refine Prog.Only.bind (reserve_only D.signer) fun res => ?_
  cases res with
  | error e => exact Prog.Only.ret _
  | ok nonce =>
    refine Prog.Only.bind (Prog.Only.op ⟨trivial, trivial⟩) fun signed => ?_
    cases signed with
    | error m => exact Prog.Only.bind (Prog.Only.op ⟨trivial, trivial⟩) fun _ => Prog.Only.ret _
    | ok u =>
      refine Prog.Only.bind (Prog.Only.op ⟨⟨rfl, rfl⟩, trivial⟩) fun reply => ?_
      exact Prog.Only.bind (Prog.Only.op ⟨trivial, trivial⟩) fun _ => Prog.Only.ret _

theorem persistAndBroadcast_only :
    (Service.persistAndBroadcast D p (p.hash D.env)).Only fun i => i.Settles D p ∧ i.Unsigned := by
  refine Prog.Only.bind (Prog.Only.op ⟨trivial, trivial⟩) fun inserted => ?_
  cases inserted with
  | proofExists =>
    refine Prog.Only.bind (Prog.Only.op ⟨trivial, trivial⟩) fun row => ?_
    rcases row with m | _ | rec
    · exact Prog.Only.ret _
    · exact Prog.Only.ret _
    · exact Prog.Only.ret _
  | failed m => exact Prog.Only.ret _
  | ok =>
    refine Prog.Only.bind broadcastSettlement_only fun res => ?_
    cases res with
    | error e => exact Prog.Only.ret _
    | ok txHash => exact Prog.Only.bind (Prog.Only.op ⟨trivial, trivial⟩) fun _ => Prog.Only.ret _

theorem recordAlreadySettled_only (h : Hash) : (Service.recordAlreadySettled p h).Only fun i => i.isSend = false :=
  Prog.Only.bind (Prog.Only.op rfl) fun _ => Prog.Only.ret _

theorem verifyProof_ok (h : verifyProof D.env D.trusted p = .ok ()) : ∃ sig, p.signatureBytes? = some sig ∧
      ∃ key ∈ D.trusted, verify D.env (D.env.sha256 (canonicalBytes p)) sig key = true := by
  unfold verifyProof at h
  split at h
  · cases h
  · next sig hsig =>
    dsimp only at h
    split at h
    · next hany => exact ⟨sig, hsig, List.any_eq_true.mp hany⟩
    · cases h

theorem submitProof_path {log : List Made} {q : Proc (Except GoError SubmitView)}
    (h : (Service.submitProof D p).Path log q) : (∀ x ∈ log, x.1.Looks) ∨
    (∃ rest, log = ⟨.isProofUsed (p.hash D.env), .result true⟩ :: rest ∧
      (do Service.recordAlreadySettled p (p.hash D.env)
          return .ok { proofHash := p.hash D.env, status := .alreadySettled } :
        Proc (Except GoError SubmitView)).Path rest q) ∨
    ∃ looks rest, log = (⟨.isProofUsed (p.hash D.env), .result false⟩ :: looks) ++ rest ∧
      CorrectlySigned D.env D.trusted p ∧ (∀ x ∈ looks, x.1.Looks) ∧
      (D.crossCheck = true → Payable p looks) ∧
      (Service.persistAndBroadcast D p (p.hash D.env)).Path rest q := by
  have hnone : ∀ {a : Except GoError SubmitView} {log : List Made},
      (pure a : Proc (Except GoError SubmitView)).Path log q → ∀ x ∈ log, x.1.Looks := by
    intro a log h x hx
    rw [(Prog.Path.of_ret h).1] at hx
    cases hx
  have hlook : ∀ {reply : Rpc Bool} {log : List Made}, (∀ x ∈ log, x.1.Looks) →
      ∀ x ∈ (⟨.isProofUsed (p.hash D.env), reply⟩ :: log : List Made), x.1.Looks := by
    intro reply log h x hx
    rcases List.mem_cons.mp hx with rfl | hx
    · trivial
    · exact h x hx
  unfold Service.submitProof at h
  cases hshape : validateShape p with
  | error e =>
    rw [hshape] at h
    exact .inl (hnone h)
  | ok _ =>
    cases hverify : verifyProof D.env D.trusted p with
    | error e =>
      rw [hshape, hverify] at h
      exact .inl (hnone h)
    | ok _ =>
      rw [hshape, hverify] at h
      rcases Prog.Path.of_op h with ⟨rfl, -⟩ | ⟨reply, log', rfl, hrest⟩
      · exact .inl (by simp)
      · cases hreply : chainErr reply with
        | error e =>
          rw [hreply] at hrest
          exact .inl (hlook (hnone hrest))
        | ok used =>
          rw [hreply] at hrest
          obtain rfl := chainErr_ok hreply
          cases used with
          | true => exact .inr (.inl ⟨log', rfl, hrest⟩)
          | false =>
            have hchecks : (if D.crossCheck then Service.crossCheckPayLink p else pure (.ok ())).Only
                Op.Looks := by
              split_ifs
              · exact crossCheckPayLink_only p
              · exact Prog.Only.ret _
            rcases Prog.Path.of_bind hrest with ⟨p', hp', -⟩ | ⟨res, looks, rest, rfl, hcheck, hpath⟩
            · exact .inl (hlook (hp'.only hchecks))
            · cases res with
              | error e =>
                obtain ⟨rfl, -⟩ := Prog.Path.of_ret hpath
                rw [List.append_nil]
                exact .inl (hlook (hcheck.only hchecks))
              | ok _ =>
                refine .inr (.inr ⟨looks, rest, rfl, ⟨hshape, hverify⟩, hcheck.only hchecks, ?_, hpath⟩)
                intro hon
                rw [if_pos hon] at hcheck
                exact crossCheckPayLink_path hcheck

theorem subset_of_append_eq {α : Type} {l₁ l₂ before after : List α} {x : α}
    (h : l₁ ++ l₂ = before ++ x :: after) (hx : x ∉ l₁) : l₁ ⊆ before := by
  rcases List.append_eq_append_iff.mp h with ⟨m, hbefore, -⟩ | ⟨m, hl₁, hrest⟩
  · rw [hbefore]
    exact List.subset_append_left _ _
  · cases m with
    | nil =>
      rw [List.append_nil] at hl₁
      rw [hl₁]
      exact fun _ hmem => hmem
    | cons y m =>
      obtain ⟨rfl, -⟩ := List.cons.inj hrest
      exact absurd (by rw [hl₁]; exact List.mem_append_right _ List.mem_cons_self) hx

theorem submitProof_gated {before after : List Made} {q : Proc (Except GoError SubmitView)}
    {tx : SettlementTx} {reply : Rpc String}
    (h : (Service.submitProof D p).Path (before ++ ⟨.sendTransaction tx, reply⟩ :: after) q) : Gated D p tx before := by
  have hsend : (⟨.sendTransaction tx, reply⟩ : Made) ∈ before ++ ⟨.sendTransaction tx, reply⟩ :: after :=
    List.mem_append_right _ List.mem_cons_self
  rcases submitProof_path h with
    hlooks | ⟨rest, hlog, hrest⟩ | ⟨looks, rest, hlog, hsigned, hlooks, hpay, hrest⟩
  · exact (hlooks _ hsend).elim
  · rw [hlog] at hsend
    rcases List.mem_cons.mp hsend with heq | hmem
    · cases heq
    · have hquiet := hrest.only (Prog.Only.bind (recordAlreadySettled_only _) fun _ => Prog.Only.ret _)
      cases hquiet _ hmem
  · have hfirst : (⟨.sendTransaction tx, reply⟩ : Made) ∉
        (⟨.isProofUsed (p.hash D.env), .result false⟩ :: looks : List Made) := by
      intro hmem
      rcases List.mem_cons.mp hmem with heq | hmem
      · cases heq
      · exact hlooks _ hmem
    have hsub := subset_of_append_eq hlog.symm hfirst
    rw [hlog] at hsend
    have hmine := (hrest.only persistAndBroadcast_only _ ((List.mem_append.mp hsend).resolve_left hfirst)).1
    exact ⟨hsigned.1, verifyProof_ok hsigned.2, hmine.1, hmine.2, hsub List.mem_cons_self,
      fun hon => (hpay hon).mono fun x hx => hsub (List.mem_cons_of_mem _ hx)⟩

theorem persistAndBroadcast_path_ne_nil {b : Except GoError SubmitView} {rest : List Made}
    (h : (Service.persistAndBroadcast D p (p.hash D.env)).Path rest (.ret b)) : rest ≠ [] := by
  rintro rfl
  cases h

theorem submitProof_rejected {log : List Made} {e : GoError}
    (h : (Service.submitProof D p).Path log (.ret (.error e))) (hrej : Rejected D p log e) : ∀ x ∈ log, x.1.Looks := by
  rcases submitProof_path h with hlooks | ⟨rest, -, hrest⟩ | ⟨looks, rest, hlog, hsigned, -, -, hrest⟩
  · exact hlooks
  · obtain ⟨_, _, _, -, -, hret⟩ := Prog.Path.of_bind_ret hrest
    cases of_pure_path hret
  · cases hrej with
    | shape hshape =>
      rw [hsigned.1] at hshape
      cases hshape
    | signature hverify =>
      rw [hsigned.2] at hverify
      cases hverify
    | crossCheck calls last hcheck =>
      -- the calls end with a look, and with one of the calls from the insert on
      exfalso
      have hcalls : calls ≠ [] := by
        rintro rfl
        cases hcheck
      have hrestne := persistAndBroadcast_path_ne_nil hrest
      have hlast : calls.getLast hcalls = rest.getLast hrestne := by
        obtain ⟨pre, hpre⟩ := last
        have heq : (pre ++ calls).getLast? =
            ((⟨.isProofUsed (p.hash D.env), .result false⟩ :: looks : List Made) ++ rest).getLast? := by
          rw [hpre, hlog]
        rw [List.getLast?_append_of_ne_nil _ hcalls, List.getLast?_append_of_ne_nil _ hrestne,
          List.getLast?_eq_some_getLast hcalls, List.getLast?_eq_some_getLast hrestne] at heq
        exact Option.some.inj heq
      have hlooks := hcheck.only (crossCheckPayLink_only p) _ (List.getLast_mem hcalls)
      rw [hlast] at hlooks
      exact (hrest.only persistAndBroadcast_only _ (List.getLast_mem hrestne)).1.not_looks hlooks
end Paths

theorem Op.Looks.quiet {i : Op} (h : i.Looks) : i.isSend = false := by
  cases i with
  | sendTransaction tx => exact h.elim
  | _ => rfl

theorem Touches.proofs_of_looks {n : Nat} {s s' : World} {i : Op} (h : Touches n s i s') (hi : i.Looks) :
    s'.proofs = s.proofs := by
  cases h with
  | nothing _ proofs => exact proofs
  | correlated rec => rfl
  | proofUsed b => rfl
  | answered => rfl
  | sent accepted => rfl
  | stored _ _ _ => exact hi.elim
  | marked _ _ _ _ => exact hi.elim

/-- **Whoever hands a settlement over has been through the gate**, and no proof hash is handed over twice. -/
theorem gated_settlement (D : Deployment) (moves : List (Move Proof Choice Drift)) :
    (∀ h, ((submissions D).exec {} moves).shared.log.countP (·.2.carries h) ≤ 1) ∧
    (∀ n p prog, ((submissions D).exec {} moves).procs[n]? = some (p, prog) → ∀ before tx reply after,
        ((submissions D).events n {} moves).map Lib.Event.made = before ++ ⟨.sendTransaction tx, reply⟩ :: after →
        Gated D p tx before) ∧
    (∀ n p e, ((submissions D).exec {} moves).returned? n = some (p, .error e) →
      Rejected D p (((submissions D).events n {} moves).map Lib.Event.made) e →
      ∀ ev ∈ (submissions D).events n {} moves, ev.call.isSend = false ∧ ev.after.proofs = ev.before.proofs) := by
  have hpath := fun n => ((submissions D).path {} moves n).1
  refine ⟨countP_carries_le (once_sound D moves), ?_, ?_⟩
  · intro n p prog hproc before tx reply after hlog
    have h := hpath n p prog hproc
    rw [hlog] at h
    exact submitProof_gated h
  · intro n p e hret hrej ev hev
    have h := hpath n p _ (Config.returned?_eq_some hret)
    have hlooks : ev.call.Looks := submitProof_rejected h hrej _ (List.mem_map_of_mem hev)
    obtain ⟨_, _, -, -, r, _, -, hserve⟩ := System.of_mem_events hev
    have htouches : Touches n ev.before ev.call ev.after := serve_cases (r := r) hserve
    exact ⟨hlooks.quiet, htouches.proofs_of_looks hlooks⟩

end LinkMint.Settle
