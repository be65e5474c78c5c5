import LinkMint.Settle.Devnet
import LinkMint.Settle.Proof.Secured

/-!
# No acknowledged payment is lost

When `HandleCallback` returns a nil error in a run that nothing disturbs (`Undisturbed`), a
settlement with the proof's hash has been accepted by the chain, or the chain has reported the
hash used, or the validator has refused the proof itself.
-/

namespace LinkMint.Settle

open LinkMint.Lib LinkMint.Chain

section Specs

variable {D : Deployment} {n : Nat} {r : Request} {s : World}

def ErrorCode.conclusive (code : ErrorCode) : Prop := code.refusesProof = true ∨ 500 ≤ code.statusFor

def GoError.conclusive (e : GoError) : Prop := e.asAppError.code.conclusive

theorem chainErr_conclusive {α : Type} {reply : Rpc α} {e : GoError} (h : chainErr reply = .error e) : e.conclusive := by
  cases reply with
  | result a => cases h
  | rpcError m =>
    cases h
    exact .inr (show 500 ≤ 502 by decide)
  | transport m =>
    cases h
    exact .inr (show 500 ≤ 502 by decide)

theorem reserve_spec (a : Address) : Spec D n r (reserve a) s fun res _ => ∀ e, res = .error e → e.conclusive := by
  refine spec_call rfl (fun _ _ => trivial) ?_
  intro _ s₁ _
  refine spec_call rfl (fun _ _ => trivial) ?_
  intro reply s₂ _
  cases hreply : chainErr reply with
  | error e =>
    refine spec_call rfl (fun _ _ => trivial) ?_
    intro _ s₃ _
    apply spec_ret
    intro e' he
    cases he
    exact chainErr_conclusive hreply
  | ok chainNonce =>
    refine spec_call rfl (fun _ _ => trivial) ?_
    intro localNext s₃ _
    apply spec_ret
    intro e he
    cases he

theorem sendTransaction_spec (tx : SettlementTx) : Spec D n r (Call.sendTransaction tx) s fun reply s' =>
      ∀ t, chainErr reply = .ok t → Accepted tx.proofHash s' := by
  refine spec_op rfl (fun _ _ => trivial) ?_
  intro s₁ c reply s₂ _ _ _ hserve t ht
  cases c with
  | sent reply' accepted =>
    simp only [serve, serveSendTransaction] at hserve
    split at hserve
    · rename_i hconsistent
      cases hserve
      cases reply with
      | result t' =>
        -- a hash in the reply means that the transaction was taken in
        have haccepted : accepted = true := hconsistent
        rw [haccepted]
        exact ⟨_, List.mem_cons_self, by simp [Event.accepts]⟩
      | rpcError m => cases ht
      | transport m => cases ht
    · cases hserve
  | _ => cases hserve

theorem broadcastSettlement_spec (plID h : Hash) : Spec D n r (Service.broadcastSettlement D plID h) s fun res s' =>
      (∀ t, res = .ok t → Accepted h s') ∧ (∀ e, res = .error e → e.conclusive) := by
  apply Ensures.bind (reserve_spec D.signer)
  intro res s₁ _ hres
  cases res with
  | error e =>
    apply spec_ret
    refine ⟨fun t ht => (by cases ht), fun e' he => ?_⟩
    cases he
    exact hres e rfl
  | ok nonce =>
    refine spec_call rfl (fun _ _ => trivial) ?_
    intro signed s₂ _
    cases signed with
    | error m =>
      refine spec_call rfl (fun _ _ => trivial) ?_
      intro _ s₃ _
      apply spec_ret
      refine ⟨fun t ht => (by cases ht), fun e he => ?_⟩
      cases he
      exact .inr (Nat.le_refl 500)
    | ok _ =>
      apply Ensures.bind (sendTransaction_spec _)
      intro reply s₃ _ hsent
      refine spec_call rfl (fun _ _ => trivial) ?_
      intro _ s₄ hs₄
      apply spec_ret
      exact ⟨fun t ht => (hsent t ht).mono hs₄.grows, fun e he => chainErr_conclusive he⟩

def Concerns (D : Deployment) (n : Nat) (r : Request) (p : Proof) (s : World) : Prop :=
  ∀ s', Since n s s' → Secured (p.hash D.env) s' → SafeFor D n r s'

variable {p : Proof}

theorem Concerns.mono {s' : World} (h : Concerns D n r p s) (hs : Since n s s') : Concerns D n r p s' :=
  fun s'' hs' => h s'' (IsTrans.trans _ _ _ hs hs')

def Settles (D : Deployment) (n : Nat) (r : Request) (res : Except GoError SubmitView) (s : World) : Prop :=
  (∀ v, res = .ok v → SafeFor D n r s) ∧ ∀ e, res = .error e → e.conclusive

theorem settles_ok {v : SubmitView} (h : SafeFor D n r s) : Settles D n r (.ok v) s :=
  ⟨fun _ _ => h, fun _ he => by cases he⟩

theorem settles_error {e : GoError} (h : e.conclusive) : Settles D n r (.error e) s := by
  refine ⟨fun _ hv => (by cases hv), fun e' he => ?_⟩
  cases he
  exact h

theorem getByProofHash_spec (h : Hash) : Spec D n r (Call.getByProofHash h) s fun res s' =>
      ∀ rec, res = .ok (some rec) → Secured h s' ∨ SafeFor D n r s' := by
  refine spec_op rfl (fun _ _ => trivial) ?_
  intro s₁ c a s₂ _ hrows hguard hserve rec hrec
  obtain ⟨hs, -⟩ := read_world hserve
  rw [hs]
  cases c with
  | ok =>
    obtain ⟨ha, -⟩ := Prod.mk.inj (Option.some.inj hserve)
    have hrow : s₁.proofs h = some rec := Except.ok.inj (ha.trans hrec)
    rcases hguard with hclear | hsafe
    · have hstatus : rec.status ≠ .received := by simpa [clear, hrow] using hclear
      obtain ⟨hb, hused, hn⟩ := hrows h rec hrow
      cases hst : rec.status with
      | received => exact absurd hst hstatus
      | broadcast => exact .inl (.inl (hb hst))
      | alreadySettled => exact .inl (.inr (hused hst))
      | settled => exact absurd hst hn
    · exact .inr hsafe
  | failed m =>
    obtain ⟨ha, -⟩ := Prod.mk.inj (Option.some.inj hserve)
    cases ha.trans hrec
  | _ => cases hserve

theorem resultForExisting_spec (hp : Concerns D n r p s) :
    Spec D n r (Service.resultForExisting (p.hash D.env)) s (Settles D n r) := by
  apply Ensures.bind (getByProofHash_spec (p.hash D.env))
  intro res s₁ hs₁ hres
  cases res with
  | error m => exact spec_ret (settles_error (.inr (Nat.le_refl 500)))
  | ok row =>
    cases row with
    | none => exact spec_ret (settles_error (.inr (Nat.le_refl 500)))
    | some rec =>
      apply spec_ret
      apply settles_ok
      rcases hres rec rfl with hsecured | hsafe
      · exact hp s₁ hs₁ hsecured
      · exact hsafe

theorem persistAndBroadcast_spec (hp : Concerns D n r p s) :
    Spec D n r (Service.persistAndBroadcast D p (p.hash D.env)) s (Settles D n r) := by
  refine spec_call rfl (fun _ _ => .inl rfl) ?_
  intro inserted s₁ hs₁
  cases inserted with
  | proofExists => exact resultForExisting_spec (hp.mono hs₁)
  | failed m => exact spec_ret (settles_error (.inr (Nat.le_refl 500)))
  | ok =>
    apply Ensures.bind (broadcastSettlement_spec _ _)
    intro res s₂ hs₂ hres
    cases res with
    | error e => exact spec_ret (settles_error (hres.2 e rfl))
    | ok txHash =>
      have haccepted := hres.1 txHash rfl
      refine spec_call rfl (fun _ hs => ⟨rfl, haccepted.mono hs.grows⟩) ?_
      intro _ s₃ hs₃
      apply spec_ret
      apply settles_ok
      have hs : Since n s s₃ := IsTrans.trans _ _ _ hs₁ (IsTrans.trans _ _ _ hs₂ hs₃)
      exact hp s₃ hs (.inl (haccepted.mono hs₃.grows))

theorem foundPayLink_conclusive {reply : Rpc PayLinkState} {e : GoError}
    (h : foundPayLink reply = .error e) : e.conclusive := by
  cases reply with
  | result pl => cases h
  | transport m =>
    have hchain : chainErr (.transport m : Rpc (Option PayLinkState)) = .error e := h
    exact chainErr_conclusive hchain
  | rpcError m =>
    simp only [foundPayLink] at h
    split at h
    · cases h
    · exact chainErr_conclusive h

theorem crossCheckPayLink_spec (p : Proof) :
    Spec D n r (Service.crossCheckPayLink p) s fun res _ => ∀ e, res = .error e → e.conclusive := by
  refine spec_call rfl (fun _ _ => trivial) ?_
  intro reply s₁ _
  cases hreply : foundPayLink reply with
  | error e =>
    apply spec_ret
    intro e' he
    cases he
    exact foundPayLink_conclusive hreply
  | ok found =>
    cases found with
    | none =>
      apply spec_ret
      intro e he
      cases he
      exact .inl rfl
    | some pl =>
      dsimp only
      split_ifs
      · apply spec_ret
        intro e he
        cases he
        exact .inl rfl
      · apply spec_ret
        intro e he
        cases he
        exact .inl rfl
      · apply spec_ret
        intro e he
        cases he
      · refine spec_call rfl (fun _ _ => trivial) ?_
        intro now s₂ _
        split_ifs
        · apply spec_ret
          intro e he
          cases he
          exact .inl rfl
        · apply spec_ret
          intro e he
          cases he

theorem validateShape_conclusive {e : AppError ErrorCode} (h : validateShape p = .error e) : e.code.conclusive := by
  unfold validateShape at h
  split_ifs at h
  all_goals
    cases h
    exact .inl rfl

theorem verifyProof_conclusive {env : Env} {trusted : List PublicKey} {e : AppError ErrorCode}
    (h : verifyProof env trusted p = .error e) : e.code.conclusive := by
  unfold verifyProof at h
  split at h
  · cases h
    exact .inl rfl
  · dsimp only at h
    split_ifs at h
    cases h
    exact .inl rfl

theorem isProofUsed_spec (h : Hash) :
    Spec D n r (Call.isProofUsed h) s fun reply s' => chainErr reply = .ok true → ReportedUsed h s' := by
  refine spec_op rfl (fun _ _ => trivial) ?_
  intro s₁ c reply s₂ _ _ _ hserve hused
  cases c with
  | used reply' =>
    cases reply' with
    | result b =>
      cases hserve
      have hb : b = true := Except.ok.inj hused
      rw [hb]
      exact ⟨_, List.mem_cons_self, rfl⟩
    | rpcError m =>
      cases hserve
      cases hused
    | transport m =>
      cases hserve
      cases hused
  | _ => cases hserve

theorem submitProof_spec (hp : Concerns D n r p s) : Spec D n r (Service.submitProof D p) s (Settles D n r) := by
  unfold Service.submitProof
  cases hshape : validateShape p with
  | error e => exact spec_ret (settles_error (validateShape_conclusive hshape))
  | ok _ =>
    cases hverify : verifyProof D.env D.trusted p with
    | error e => exact spec_ret (settles_error (verifyProof_conclusive hverify))
    | ok _ =>
      apply Ensures.bind (isProofUsed_spec (p.hash D.env))
      intro reply s₁ hs₁ hused
      cases hreply : chainErr reply with
      | error e => exact spec_ret (settles_error (chainErr_conclusive hreply))
      | ok used =>
        cases used with
        | true =>
          -- the row it may write says no more than the chain did
          have hreported := hused hreply
          refine spec_call rfl (fun _ hs => .inr ⟨rfl, hreported.mono hs.grows⟩) ?_
          intro _ s₂ hs₂
          apply spec_ret
          apply settles_ok
          exact hp s₂ (IsTrans.trans _ _ _ hs₁ hs₂) (.inr (hreported.mono hs₂.grows))
        | false =>
          have hcheck : Spec D n r (if D.crossCheck then Service.crossCheckPayLink p else pure (.ok ())) s₁
              fun res _ => ∀ e, res = .error e → e.conclusive := by
            split_ifs
            · exact crossCheckPayLink_spec p
            · apply spec_ret
              intro e he
              cases he
          apply Ensures.bind hcheck
          intro res s₂ hs₂ hres
          cases res with
          | error e => exact spec_ret (settles_error (hres e rfl))
          | ok _ => exact persistAndBroadcast_spec (hp.mono (IsTrans.trans _ _ _ hs₁ hs₂))

theorem slotGet_spec (key : String) (attempt : Nat) : Spec D n r (Call.slotGet key attempt) s fun res s' =>
      ∀ slot, res = .ok slot → slot = none ∧ attempt = 0 ∨ SafeFor D n r s' := by
  refine spec_op rfl (fun _ _ => trivial) ?_
  intro s₁ c a s₂ _ _ hguard hserve slot hslot
  obtain ⟨hs, -⟩ := read_world hserve
  rw [hs]
  cases c with
  | ok =>
    obtain ⟨ha, -⟩ := Prod.mk.inj (Option.some.inj hserve)
    have heq : s₁.slots key = slot := Except.ok.inj (ha.trans hslot)
    rcases hguard with hclear | hsafe
    · have hfree : s₁.slots key = none ∧ attempt = 0 := by simpa [clear] using hclear
      exact .inl ⟨heq.symm.trans hfree.1, hfree.2⟩
    · exact .inr hsafe
  | failed m =>
    obtain ⟨ha, -⟩ := Prod.mk.inj (Option.some.inj hserve)
    cases ha.trans hslot
  | _ => cases hserve

def Begins (D : Deployment) (n : Nat) (r : Request) (res : Except Idem.Error (Option Response))
    (s : World) : Prop :=
  (∀ resp, res = .ok (some resp) → SafeFor D n r s) ∧
    ∀ e, res = .error e → SafeFor D n r s ∨ (Server.idemError e).conclusive

theorem begins_own : Begins D n r (.ok none) s := ⟨fun _ h => (by cases h), fun _ h => by cases h⟩

theorem begins_safe {res : Except Idem.Error (Option Response)} (h : SafeFor D n r s) : Begins D n r res s :=
  ⟨fun _ _ => h, fun _ _ => .inl h⟩

theorem begins_backend (m : String) : Begins D n r (.error (.backend m)) s := by
  refine ⟨fun _ h => (by cases h), fun e he => ?_⟩
  cases he
  exact .inr (.inr (Nat.le_refl 500))

theorem attempts_spec (rkey : String) (fp : Hash) (left attempt : Nat)
    (hend : left = 0 → SafeFor D n r s) (hlast : left = 1 → attempt ≠ 0) :
    Spec D n r (Idem.attempts rkey fp left attempt) s (Begins D n r) := by
  induction left generalizing attempt s with
  | zero => exact spec_ret (begins_safe (hend rfl))
  | succ left ih =>
    refine spec_call rfl (fun _ _ => trivial) ?_
    intro reserved s₁ _
    cases reserved with
    | error m => exact spec_ret (begins_backend m)
    | ok took =>
      cases took with
      | true => exact spec_ret begins_own
      | false =>
        apply Ensures.bind (slotGet_spec rkey attempt)
        intro res s₂ _ hres
        cases res with
        | error m => exact spec_ret (begins_backend m)
        | ok slot =>
          cases slot with
          | none =>
            apply ih (attempt + 1)
            · intro hzero
              rcases hres none rfl with ⟨-, hattempt⟩ | hsafe
              · exact absurd hattempt (hlast (by rw [hzero]))
              · exact hsafe
            · intro _
              exact Nat.succ_ne_zero attempt
          | some rec =>
            have hsafe : SafeFor D n r s₂ := by
              rcases hres (some rec) rfl with ⟨hnone, -⟩ | hsafe
              · cases hnone
              · exact hsafe
            dsimp only
            split_ifs
            · exact spec_ret (begins_safe hsafe)
            · cases rec.completed with
              | none => exact spec_ret (begins_safe hsafe)
              | some resp => exact spec_ret (begins_safe hsafe)

def Answers (D : Deployment) (n : Nat) (r : Request) (resp : Response) (s : World) : Prop :=
  SafeFor D n r s ∨ ∃ e, resp = .envelope e ∧ e.code.conclusive

theorem answers_error {e : GoError} (h : e.conclusive) : Answers D n r (writeError e) s := .inr ⟨e.asAppError, rfl, h⟩

theorem process_spec (idemKey : String) (fp : Hash) (hp : Concerns D n r p s) :
    Spec D n r (Server.process D idemKey fp p) s (Answers D n r) := by
  apply Ensures.bind (submitProof_spec hp)
  intro res s₁ _ hres
  cases res with
  | error e =>
    refine spec_call rfl (fun _ _ => trivial) ?_
    intro _ s₂ _
    exact spec_ret (answers_error (hres.2 e rfl))
  | ok v =>
    refine spec_call rfl (fun _ _ => trivial) ?_
    intro _ s₂ hs₂
    exact spec_ret (.inl ((hres.1 v rfl).mono hs₂))

theorem server_submitProof_spec (idemKey : String) (raw : Bytes)
    (hp : ∀ p, Server.parse D raw = .ok p → Concerns D n r p s) :
    Spec D n r (Server.submitProof D idemKey raw) s (Answers D n r) := by
  unfold Server.submitProof
  split_ifs
  · exact spec_ret (answers_error (.inl rfl))
  · exact spec_ret (answers_error (.inl rfl))
  · cases hparse : Server.parse D raw with
    | error e =>
      apply spec_ret
      apply answers_error
      unfold Server.parse at hparse
      split at hparse
      · cases hparse
        exact .inl rfl
      · cases hparse
        exact .inl rfl
      · cases hparse
    | ok p =>
      apply Ensures.bind (attempts_spec _ _ 2 0 (fun h => by cases h) (fun h => by cases h))
      intro res s₁ hs₁ hres
      cases res with
      | error e =>
        apply spec_ret
        rcases hres.2 e rfl with hsafe | hconclusive
        · exact .inl hsafe
        · exact answers_error hconclusive
      | ok cached =>
        cases cached with
        | some resp => exact spec_ret (.inl (hres.1 resp rfl))
        | none => exact process_spec idemKey _ ((hp p hparse).mono hs₁)

theorem respond_spec (resp : Response) : Spec D n r (Call.respond resp) s fun d s' =>
      (∀ m, d ≠ .unreachable m) → (n, .answered resp) ∈ s'.log := by
  refine spec_op rfl (fun _ _ => trivial) ?_
  intro s₁ c d s₂ _ _ _ hserve hd
  cases c with
  | delivered d' =>
    cases d' with
    | unreachable m =>
      cases hserve
      exact absurd rfl (hd m)
    | _ =>
      cases hserve
      exact List.mem_cons_self
  | _ => cases hserve

theorem ErrorCode.conclusive.refuses {code : ErrorCode} (h : code.conclusive)
    (hstatus : code.statusFor < 500) : code.refusesProof = true := by
  rcases h with hrefuses | hserver
  · exact hrefuses
  · exact absurd hserver (Nat.not_le.mpr hstatus)

theorem outcome_ok {resp : Response} {d : Delivered} {o : Adapter.CallbackOutcome}
    (h : Adapter.outcome (Adapter.readResponse resp d) = .ok o) :
    (∀ m, d ≠ .unreachable m) ∧ ∀ e, resp = .envelope e → e.code.statusFor < 500 := by
  cases d with
  | unreachable m => cases h
  | whole =>
    refine ⟨fun m hm => (by cases hm), fun e he => ?_⟩
    subst he
    simp only [Adapter.readResponse] at h
    split at h
    · rename_i hrange
      exact hrange.2
    · cases h
  | cut m =>
    refine ⟨fun m hm => (by cases hm), fun e he => ?_⟩
    subst he
    simp only [Adapter.readResponse] at h
    split at h
    · rename_i hrange
      exact hrange.2
    · cases h

theorem broadcast_spec (idemKey : String) (hp : ∀ q, Server.parse D (marshalWire p) = .ok q → Concerns D n r q s) :
    Spec D n r (Adapter.broadcast D p idemKey) s fun res s' =>
      ∀ o, Adapter.outcome res = .ok o → SafeFor D n r s' ∨ Refused n s' := by
  refine spec_call rfl (fun _ _ => trivial) ?_
  intro requested s₁ hs₁
  cases requested with
  | error m =>
    apply spec_ret
    intro o ho
    cases ho
  | ok _ =>
    apply Ensures.bind (server_submitProof_spec idemKey _ fun q hq => (hp q hq).mono hs₁)
    intro resp s₂ _ hresp
    apply Ensures.bind (respond_spec resp)
    intro d s₃ hs₃ hd
    apply spec_ret
    intro o ho
    obtain ⟨hreached, hstatus⟩ := outcome_ok ho
    rcases hresp with hsafe | ⟨e, rfl, hconclusive⟩
    · exact .inl (hsafe.mono hs₃)
    · exact .inr ⟨_, hd hreached, rfl, hconclusive.refuses (hstatus e rfl)⟩

theorem parse_marshalWire (hwire : DecodesWire D) {q : Proof} (h : Server.parse D (marshalWire p) = .ok q) : q = p := by
  unfold Server.parse at h
  split at h
  · cases h
  · cases h
  · rename_i hdecode
    obtain rfl := Except.ok.inj h
    exact hwire p _ _ hdecode

theorem signAndBroadcast_spec (hwire : DecodesWire D) {cb : Adapter.CallbackResult} {rec : Correlation}
    (now : Int64) (hseen : seen n s = [rec]) :
    Spec D n (.callback cb) (Adapter.signAndBroadcast D (Adapter.proofOf cb rec now)) s fun res s' =>
      ∀ o, res = .ok o → Safe D n cb s' ∨ Refused n s' := by
  refine spec_call rfl (fun _ _ => trivial) ?_
  intro signed s₁ hs₁
  cases signed with
  | error m =>
    apply spec_ret
    intro o ho
    cases ho
  | ok sig =>
    have hp : ∀ q, Server.parse D (marshalWire { Adapter.proofOf cb rec now with signature := sig }) =
        .ok q → Concerns D n (.callback cb) q s₁ := by
      intro q hq s' hs' hsecured rec' hrec' _
      obtain rfl := parse_marshalWire hwire hq
      -- the only correlation this process has seen
      rw [← mem_seen, hs'.seen, hs₁.seen, hseen, List.mem_singleton] at hrec'
      rw [hrec']
      exact hsecured
    apply Ensures.bind (broadcast_spec _ hp)
    intro res s₂ _ hres
    apply spec_ret
    exact hres
end Specs

theorem handleCallback_holds {D : Deployment} (hwire : DecodesWire D) {n : Nat}
    (cb : Adapter.CallbackResult) {s : World} (hfresh : own n s = []) :
    Holds serve (noLoss D) n (.callback cb) (Adapter.handleCallback D cb)
      (fun res => Kept D n (.callback cb) (.callback res)) s := by
  intro s₁ hrely hrows c hguard a s₂ hserve
  have htouches := serve_cases hserve
  have hseen₁ : seen n s₁ = [] := by simp only [seen, hrely.own, hfresh, List.filterMap_nil]
  refine ⟨hrows.touches htouches trivial, fun _ hm => htouches.others hm, trivial, ?_⟩
  cases c with
  | ok =>
    simp only [serve, serveCorrelationGet] at hserve
    split at hserve
    · -- the correlation is there, and is all this process has seen
      rename_i rec _
      cases hserve
      have hseen : seen n (s₁.note n (.correlated rec)) = [rec] := by
        have hown : own n (s₁.note n (.correlated rec)) = .correlated rec :: own n s₁ := by
          rw [own_cons rfl, if_pos rfl]
        simp only [seen, hown]
        exact congrArg (rec :: ·) hseen₁
      have hrec : ∀ rec', (n, .correlated rec') ∈ (s₁.note n (.correlated rec)).log → rec' = rec := by
        intro rec' hmem
        rw [← mem_seen, hseen, List.mem_singleton] at hmem
        exact hmem
      change Holds _ _ _ _ (if cb.succeeded = false then _ else _) _ _
      split_ifs with hsucceeded hamount
      · intro rec' _ hok
        rw [hsucceeded] at hok
        cases hok
      · intro rec' hmem _ hpaid
        rw [hrec rec' hmem] at hpaid
        exact absurd hpaid hamount.2
      · refine Holds.mono (show Spec D n (.callback cb) _ _
          (fun res s' => ∀ o, res = .ok o → Safe D n cb s' ∨ Refused n s') from ?_) ?_
        · refine spec_call rfl (fun _ _ => trivial) ?_
          intro now s₃ hs₃
          dsimp only
          cases Adapter.validate (Adapter.proofOf cb rec now) with
          | error m =>
            apply spec_ret
            intro o ho
            cases ho
          | ok _ => exact signAndBroadcast_spec hwire now (hs₃.seen.trans hseen)
        · intro res s' hres
          cases res with
          | error e => trivial
          | ok o =>
            intro rec' hmem _ hpaid
            rcases hres.2 o rfl with hsafe | hrefused
            · exact .inl (hsafe rec' hmem hpaid)
            · exact .inr hrefused
    · -- no correlation: there is nothing to owe
      cases hserve
      intro rec' hmem
      rw [← mem_seen, hseen₁] at hmem
      cases hmem
  | failed m =>
    cases hserve
    trivial
  | _ => cases hserve

theorem Kept.stable {D : Deployment} {n : Nat} {r : Request} {a : Returned} {s s' : World}
    (h : Kept D n r a s) (hs : Others n s s') : Kept D n r a s' := by
  cases r with
  | submit key raw => trivial
  | callback cb =>
    cases a with
    | submit resp => trivial
    | callback res =>
      cases res with
      | error e => trivial
      | ok o =>
        intro rec hmem hsucceeded hpaid
        rw [← mem_own, hs.own, mem_own] at hmem
        rcases h rec hmem hsucceeded hpaid with hsecured | ⟨e, he, hrefuses⟩
        · exact .inl (hsecured.mono hs.grows)
        · exact .inr ⟨e, hs.grows he, hrefuses⟩

theorem deliveries_begin {D : Deployment} (hwire : DecodesWire D) (n : Nat) (r : Request) {s : World}
    (hfresh : own n s = []) : Holds serve (noLoss D) n r ((deliveries D).main r) (Kept D n r) s := by
  cases r with
  | callback cb =>
    apply Holds.bind (handleCallback_holds hwire cb hfresh)
    intro res s' hres
    exact hres
  | submit key raw =>
    have hanswers : Spec D n (.submit key raw) (Server.submitProof D key raw) s fun _ _ => True :=
      Ensures.mono (server_submitProof_spec key raw fun _ _ _ _ _ => trivial) fun _ _ _ _ => trivial
    apply Holds.bind hanswers
    intro resp s' _
    trivial

/-- **A delivery that answered without an error has not lost its payment**, in every run in which none is disturbed. -/
theorem no_payment_lost (D : Deployment) (hwire : DecodesWire D)
    (moves : List (Move Request Choice Drift))
    (undisturbed : ∀ e ∈ trace (deliveries D).step { shared := {} } moves, Meets (noLoss D) e.1 e.2)
    (n : Nat) (cb : Adapter.CallbackResult) (o : Adapter.CallbackOutcome) (rec : Correlation)
    (returned : ((deliveries D).exec {} moves).returned? n = some (.callback cb, .callback (.ok o)))
    (stored : (n, .correlated rec) ∈ ((deliveries D).exec {} moves).shared.log)
    (succeeded : cb.succeeded = true) (paid : cb.amount = rec.amount) :
    Secured (callbackHash D.env cb rec) ((deliveries D).exec {} moves).shared ∨
      Refused n ((deliveries D).exec {} moves).shared := by
  have hrows : Rows {} := by
    intro h rec hrow
    cases hrow
  have hsound : Sound (deliveries D) (noLoss D) (Kept D) ((deliveries D).exec {} moves) :=
    System.sound (deliveries D) (noLoss D) (noLoss_stable D) (fun _ _ _ _ _ h hs => h.stable hs)
      (fun n r s _ hfresh => ⟨trivial, deliveries_begin hwire n r hfresh⟩) hrows (fun _ => rfl) moves
      undisturbed
  obtain ⟨-, hkept⟩ := hsound.procs n _ _ (Config.returned?_eq_some returned)
  exact hkept rec stored succeeded paid

/-- A redelivery after the validator was down settles. -/
theorem no_payment_lost_retryRun : Secured (callbackHash Devnet.env Devnet.callback Devnet.correlation)
        ((deliveries Devnet.deployment).exec {} Devnet.retryRun).shared ∨
      Refused 1 ((deliveries Devnet.deployment).exec {} Devnet.retryRun).shared := by
  have undisturbed : ∀ e ∈ trace (deliveries Devnet.deployment).step { shared := {} } Devnet.retryRun,
      Meets (noLoss Devnet.deployment) e.1 e.2 := by
    decide +kernel
  have returned : ((deliveries Devnet.deployment).exec {} Devnet.retryRun).returned? 1 =
      some (.callback Devnet.callback, .callback (.ok
        { status := .validator .broadcast
          proofHash := some 0xc4dd24a11eff729b955667b4d6ac7cbe0d89c8b6b1202343193083e17439f582
          txHash := "0x01ed4a37" })) := by
    decide +kernel
  have stored : (1, .correlated Devnet.correlation) ∈
      ((deliveries Devnet.deployment).exec {} Devnet.retryRun).shared.log := by
    decide +kernel
  exact no_payment_lost Devnet.deployment Devnet.decodesWire Devnet.retryRun undisturbed 1
    Devnet.callback _ Devnet.correlation returned stored rfl rfl

/-- The chain is down when the first delivery sends its settlement, and the delivery fails. -/
theorem payment_lost_outageRun : ((deliveries Devnet.deployment).exec {} Devnet.outageRun).returned? 1 =
        some (.callback Devnet.callback, .callback (.ok
          { status := .validator .received
            proofHash := some 0xc4dd24a11eff729b955667b4d6ac7cbe0d89c8b6b1202343193083e17439f582 })) ∧
      (1, .correlated Devnet.correlation) ∈
        ((deliveries Devnet.deployment).exec {} Devnet.outageRun).shared.log ∧
      Devnet.callback.succeeded = true ∧ Devnet.callback.amount = Devnet.correlation.amount ∧
      ¬ Secured (callbackHash Devnet.env Devnet.callback Devnet.correlation)
        ((deliveries Devnet.deployment).exec {} Devnet.outageRun).shared ∧
      ¬ Refused 1 ((deliveries Devnet.deployment).exec {} Devnet.outageRun).shared := by
  decide +kernel

end LinkMint.Settle
