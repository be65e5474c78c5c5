import LinkMint.Settle.Charges
import LinkMint.Settle.Proof.Gate

/-!
# The amount, from the charge to the settlement

Four records carry an amount: the charge, the correlation stored for it, the callback, and the
PayLink on the chain.
-/

namespace LinkMint.Settle

open LinkMint.Lib LinkMint.Chain

def Op.Plain : Op → Prop
  | .sign _ | .sendTransaction _ => False
  | _ => True

section
variable {D : Deployment} {cb : Adapter.CallbackResult}

def afterSign (D : Deployment) (p : Proof) :
    Except String String → Proc (Except (AppError Adapter.ErrorCode) Adapter.CallbackOutcome)
  | .error m => return .error (Adapter.internalError s!"sign proof: {m}")
  | .ok sig => do
    let res ← Adapter.broadcast D { p with signature := sig } ("mpesa:" ++ p.txID)
    return Adapter.outcome res

structure Signing (D : Deployment) (cb : Adapter.CallbackResult) (rec : Correlation) (now : Int64)
    (answer : Except String String) (rest : List Made)
    (q : Proc (Except (AppError Adapter.ErrorCode) Adapter.CallbackOutcome)) : Prop where
  succeeded : cb.succeeded = true
  amount : cb.amount = 0 ∨ cb.amount = rec.amount
  path : (afterSign D (Adapter.proofOf cb rec now) answer).Path rest q

variable {q : Proc (Except (AppError Adapter.ErrorCode) Adapter.CallbackOutcome)}

theorem handleCallback_path {log : List Made} (h : (Adapter.handleCallback D cb).Path log q) :
    (∀ x ∈ log, x.1.Plain) ∨ ∃ rec now answer rest,
      log = ⟨.correlationGet cb.checkoutRequestID, .ok (some rec)⟩ :: ⟨.now, now⟩ ::
        ⟨.sign (Adapter.proofOf cb rec now), answer⟩ :: rest ∧ Signing D cb rec now answer rest q := by
  have hnone : ∀ {a : Except (AppError Adapter.ErrorCode) Adapter.CallbackOutcome} {log : List Made},
      (pure a : Proc (Except (AppError Adapter.ErrorCode) Adapter.CallbackOutcome)).Path log q → log = [] :=
    fun h => (Prog.Path.of_ret h).1
  rcases Prog.Path.of_op h with ⟨rfl, -⟩ | ⟨found, log₁, rfl, h₁⟩
  · exact .inl (by simp)
  · rcases found with m | _ | rec
    · exact .inl (by simp [hnone h₁, Op.Plain])
    · exact .inl (by simp [hnone h₁, Op.Plain])
    · dsimp only at h₁
      split_ifs at h₁ with hfailed hamount
      · exact .inl (by simp [hnone h₁, Op.Plain])
      · exact .inl (by simp [hnone h₁, Op.Plain])
      · rcases Prog.Path.of_op h₁ with ⟨rfl, -⟩ | ⟨now, log₂, rfl, h₂⟩
        · exact .inl (by simp [Op.Plain])
        · cases hvalid : Adapter.validate (Adapter.proofOf cb rec now) with
          | error m =>
            rw [hvalid] at h₂
            exact .inl (by simp [hnone h₂, Op.Plain])
          | ok _ =>
            rw [hvalid] at h₂
            rcases Prog.Path.of_op h₂ with ⟨rfl, -⟩ | ⟨answer, rest, rfl, h₃⟩
            · exact .inl (by simp [Op.Plain])
            · refine .inr ⟨rec, now, answer, rest, rfl, by simpa using hfailed, ?_, ?_⟩
              · rw [not_and_or, not_not, not_not] at hamount
                exact hamount
              · cases answer with
                | error m => exact h₃
                | ok sig => exact h₃

theorem Op.Plain.unsigned (i : Op) (h : i.Plain) : i.Unsigned := by
  cases i with
  | sign p => exact h
  | _ => trivial

theorem submitProof_unsigned (p : Proof) : (Service.submitProof D p).Only Op.Unsigned := by
  have hlooks : ∀ i : Op, i.Looks → i.Unsigned := by
    intro i hi
    cases i with
    | sign p => exact hi
    | _ => trivial
  unfold Service.submitProof
  cases validateShape p with
  | error e => exact Prog.Only.ret _
  | ok _ =>
    cases verifyProof D.env D.trusted p with
    | error e => exact Prog.Only.ret _
    | ok _ =>
      refine Prog.Only.bind (Prog.Only.op trivial) fun reply => ?_
      rcases chainErr reply with e | _ | _
      · exact Prog.Only.ret _
      · refine Prog.Only.bind ?_ fun res => ?_
        · split_ifs
          · exact (crossCheckPayLink_only p).mono hlooks
          · exact Prog.Only.ret _
        · cases res with
          | error e => exact Prog.Only.ret _
          | ok _ => exact persistAndBroadcast_only.mono fun _ h => h.2
      · refine Prog.Only.bind ?_ fun _ => Prog.Only.ret _
        exact Prog.Only.bind (Prog.Only.op trivial) fun _ => Prog.Only.ret _

theorem begin_only (route key : String) (fp : Hash) : (Idem.begin route key fp).Only Op.Plain := by
  have hattempts : ∀ left attempt, (Idem.attempts (Idem.key route key) fp left attempt).Only Op.Plain := by
    intro left
    induction left with
    | zero => exact fun _ => Prog.Only.ret _
    | succ left ih =>
      intro attempt
      refine Prog.Only.bind (Prog.Only.op trivial) fun set => ?_
      rcases set with m | _ | _
      · exact Prog.Only.ret _
      · refine Prog.Only.bind (Prog.Only.op trivial) fun slot => ?_
        rcases slot with m | _ | rec
        · exact Prog.Only.ret _
        · exact ih (attempt + 1)
        · dsimp only
          split_ifs
          · exact Prog.Only.ret _
          · cases rec.completed with
            | none => exact Prog.Only.ret _
            | some resp => exact Prog.Only.ret _
      · exact Prog.Only.ret _
  exact hattempts 2 0

theorem process_rest_only (idemKey : String) (fp : Hash) (res : Except GoError SubmitView) : (match res with
      | .error e => do
        Idem.release Server.submitRoute idemKey
        return writeError e
      | .ok v => do
        Idem.complete Server.submitRoute idemKey fp (.view v)
        return .view v : Proc Response).Only Op.Plain := by
  cases res with
  | error e =>
    exact Prog.Only.bind (Prog.Only.bind (Prog.Only.op trivial) fun _ => Prog.Only.ret _) fun _ => Prog.Only.ret _
  | ok v =>
    exact Prog.Only.bind (Prog.Only.bind (Prog.Only.op trivial) fun _ => Prog.Only.ret _) fun _ => Prog.Only.ret _

theorem server_unsigned (idemKey : String) (raw : Bytes) : (Server.submitProof D idemKey raw).Only Op.Unsigned := by
  unfold Server.submitProof
  split_ifs
  · exact Prog.Only.ret _
  · exact Prog.Only.ret _
  · cases Server.parse D raw with
    | error e => exact Prog.Only.ret _
    | ok p =>
      refine Prog.Only.bind ((begin_only _ _ _).mono Op.Plain.unsigned) fun begun => ?_
      rcases begun with e | _ | cached
      · exact Prog.Only.ret _
      · exact Prog.Only.bind (submitProof_unsigned p) fun res => (process_rest_only _ _ res).mono Op.Plain.unsigned
      · exact Prog.Only.ret _

theorem broadcast_unsigned (p : Proof) (idemKey : String) : (Adapter.broadcast D p idemKey).Only Op.Unsigned := by
  refine Prog.Only.bind (Prog.Only.op trivial) fun sent => ?_
  cases sent with
  | error m => exact Prog.Only.ret _
  | ok _ =>
    refine Prog.Only.bind (server_unsigned _ _) fun resp => ?_
    exact Prog.Only.bind (Prog.Only.op trivial) fun _ => Prog.Only.ret _

theorem signed_of_path {log : List Made} (h : (Adapter.handleCallback D cb).Path log q) {p : Proof}
    {answer : Except String String} (hsign : ⟨.sign p, answer⟩ ∈ log) :
    ∃ rec now, ⟨.correlationGet cb.checkoutRequestID, .ok (some rec)⟩ ∈ log ∧ cb.succeeded = true ∧
      (cb.amount = 0 ∨ cb.amount = rec.amount) ∧ p = Adapter.proofOf cb rec now := by
  rcases handleCallback_path h with hplain | ⟨rec, now, answer', rest, rfl, hsigning⟩
  · exact (hplain _ hsign).elim
  · refine ⟨rec, now, List.mem_cons_self, hsigning.succeeded, hsigning.amount, ?_⟩
    have hrest : ∀ x ∈ rest, x.1.Unsigned := by
      have hpath := hsigning.path
      cases answer' with
      | error m =>
        rw [(Prog.Path.of_ret hpath).1]
        simp
      | ok sig => exact hpath.only (Prog.Only.bind (broadcast_unsigned _ _) fun _ => Prog.Only.ret _)
    simp only [List.mem_cons] at hsign
    rcases hsign with heq | heq | heq | hmem
    · cases heq
    · cases heq
    · cases heq
      rfl
    · exact (hrest _ hmem).elim

theorem Gated.mono {p : Proof} {tx : SettlementTx} {log log' : List Made} (h : Gated D p tx log) (hsub : log ⊆ log') :
    Gated D p tx log' :=
  { h with unused := hsub h.unused, payable := fun hon => (h.payable hon).mono hsub }

theorem server_gated {idemKey : String} {raw : Bytes} {before after : List Made} {q : Proc Response}
    {tx : SettlementTx} {reply : Rpc String}
    (h : (Server.submitProof D idemKey raw).Path (before ++ ⟨.sendTransaction tx, reply⟩ :: after) q) :
    ∃ p, Server.parse D raw = .ok p ∧ Gated D p tx before := by
  have hnone : ∀ {a : Response} {before : List Made},
      ¬ (pure a : Proc Response).Path (before ++ ⟨.sendTransaction tx, reply⟩ :: after) q := by
    intro a before h
    simpa using (Prog.Path.of_ret h).1
  unfold Server.submitProof at h
  split_ifs at h
  · exact (hnone h).elim
  · exact (hnone h).elim
  · cases hparse : Server.parse D raw with
    | error e =>
      rw [hparse] at h
      exact (hnone h).elim
    | ok p =>
      rw [hparse] at h
      refine ⟨p, rfl, ?_⟩
      rcases Prog.Path.of_bind_made h with ⟨after', p', hfirst⟩ | ⟨begun, first, rest, rfl, -, hrest⟩
      · exact (hfirst.only (begin_only _ _ _) ⟨.sendTransaction tx, reply⟩ (by simp)).elim
      · rcases begun with e | _ | cached
        · exact (hnone hrest).elim
        · rcases Prog.Path.of_bind_made hrest with ⟨after', p', hsubmit⟩ | ⟨res, first', rest', rfl, -, hlast⟩
          · exact (submitProof_gated hsubmit).mono (List.subset_append_right _ _)
          · exact (hlast.only (process_rest_only _ _ res) ⟨.sendTransaction tx, reply⟩ (by simp)).elim
        · exact (hnone hrest).elim

inductive Submitted (D : Deployment) : Request → List Made → Proof → Prop
  | submit {idemKey : String} {raw : Bytes} {log : List Made} {p : Proof} (parsed : Server.parse D raw = .ok p) :
      Submitted D (.submit idemKey raw) log p
  | callback {cb : Adapter.CallbackResult} {log : List Made} {unsigned p : Proof} {sig : String}
      (signed : ⟨.sign unsigned, .ok sig⟩ ∈ log)
      (parsed : Server.parse D (marshalWire { unsigned with signature := sig }) = .ok p) :
      Submitted D (.callback cb) log p

theorem callback_gated {before after : List Made} {tx : SettlementTx} {reply : Rpc String}
    (h : (Adapter.handleCallback D cb).Path (before ++ ⟨.sendTransaction tx, reply⟩ :: after) q) :
    ∃ p, Submitted D (.callback cb) before p ∧ Gated D p tx before := by
  rcases handleCallback_path h with hplain | ⟨rec, now, answer, rest, hlog, hsigning⟩
  · exact (hplain ⟨.sendTransaction tx, reply⟩ (by simp)).elim
  · -- the three calls before the broadcast are none that sends
    obtain ⟨before', rfl, rfl⟩ : ∃ before', before = ⟨.correlationGet cb.checkoutRequestID, .ok (some rec)⟩ ::
        ⟨.now, now⟩ :: ⟨.sign (Adapter.proofOf cb rec now), answer⟩ :: before' ∧
        rest = before' ++ ⟨.sendTransaction tx, reply⟩ :: after := by
      match before, hlog with
      | [], hlog => cases hlog
      | [_], hlog => cases hlog
      | [_, _], hlog => cases hlog
      | _ :: _ :: _ :: before', hlog =>
        simp only [List.cons_append, List.cons.injEq] at hlog
        obtain ⟨rfl, rfl, rfl, rfl⟩ := hlog
        exact ⟨before', rfl, rfl⟩
    have hpath := hsigning.path
    cases answer with
    | error m => simpa using (Prog.Path.of_ret hpath).1
    | ok sig =>
      rcases Prog.Path.of_bind_made hpath with ⟨after', p', hbroadcast⟩ | ⟨res, first, more, -, -, hlast⟩
      · rcases Prog.Path.of_bind_made hbroadcast with ⟨after'', p'', hop⟩ | ⟨sent, first, more, rfl, -, hrest⟩
        · exact (hop.only (P := Op.Plain) (Prog.Only.op trivial) ⟨.sendTransaction tx, reply⟩ (by simp)).elim
        · cases sent with
          | error m => simpa using (Prog.Path.of_ret hrest).1
          | ok _ =>
            rcases Prog.Path.of_bind_made hrest with ⟨after'', p'', hserver⟩ | ⟨resp, first', more', -, -, hlast⟩
            · obtain ⟨p, hparse, hgated⟩ := server_gated hserver
              refine ⟨p, @Submitted.callback _ _ _ _ _ sig (by simp) hparse, hgated.mono fun x hx => ?_⟩
              simp [hx]
            · exact (hlast.only (P := Op.Plain) (Prog.Only.bind (Prog.Only.op trivial) fun _ => Prog.Only.ret _)
                ⟨.sendTransaction tx, reply⟩ (by simp)).elim
      · simpa using (Prog.Path.of_ret hlast).1
end

def Adapter.Charge.Started (c : Adapter.Charge) (defaultShortCode id : String) (params : Adapter.STKPushParams) :
    Prop :=
  Adapter.chargeParams defaultShortCode c.input = .ok params ∧ ∃ res, c.reply = .ok res ∧ res.checkoutRequestID = id

def Correlated (short : String) (moves : List (Move Request Choice Happening)) (s : World) : Prop :=
  ∀ id rec, s.correlations id = some rec →
    ∃ c params, Move.drift (.charge c) ∈ moves ∧ c.Started short id params ∧ rec = params.record

theorem serve_correlations {ρ : Type} {n : Nat} {r : ρ} {s s' : World} {i : Op} {c : Choice} {a : i.Answer}
    (h : serve n r s i c = some (a, s')) : s'.correlations = s.correlations := by
  cases i with
  | request | slotGet _ _ | getByProofHash _ | signTx _ => rw [(read_world h).1]
  | slotSet _ _ | slotDel _ => rcases write_world h with rfl | rfl <;> rfl
  | localNonce a => rw [always_world h]
  | commitNonce a next =>
    rw [always_world h]
    cases next <;> rfl
  | markBroadcast h' txHash status =>
    change serveMarkBroadcast s h' txHash status c = _ at h
    unfold serveMarkBroadcast at h
    split at h
    · rcases write_world h with rfl | rfl <;> rfl
    · cases c <;> cases h <;> rfl
  | now | sign _ | getPayLink _ | getNonce _ => cases c <;> cases h <;> rfl
  | correlationGet id =>
    cases c <;> simp only [serve, serveCorrelationGet] at h
    case ok => split at h <;> cases h <;> rfl
    all_goals cases h <;> rfl
  | respond resp =>
    cases c <;> simp only [serve, serveRespond] at h
    case delivered d => cases d <;> cases h <;> rfl
    all_goals cases h
  | isProofUsed h' =>
    cases c <;> simp only [serve, serveIsProofUsed] at h
    case used reply => cases reply <;> cases h <;> rfl
    all_goals cases h
  | setNX key fp =>
    cases c <;> simp only [serve, serveSetNX] at h
    case ok => split at h <;> cases h <;> rfl
    case lost m =>
      split at h
      · cases h
        rfl
      · cases h
    all_goals cases h <;> rfl
  | insertProof rec =>
    cases c <;> simp only [serve, serveInsertProof] at h
    case ok => split at h <;> cases h <;> rfl
    case lost m =>
      split at h
      · cases h
        rfl
      · cases h
    all_goals cases h <;> rfl
  | lockNonce =>
    cases c <;> simp only [serve, serveLockNonce] at h
    case ok =>
      split at h
      · cases h
      · cases h
        rfl
    all_goals cases h
  | sendTransaction tx =>
    cases c <;> simp only [serve, serveSendTransaction] at h
    case sent reply accepted =>
      split at h
      · cases h
        rfl
      · cases h
    all_goals cases h

theorem initiateCharge_cases (short : String) (s : World) (c : Adapter.Charge) :
    (Adapter.initiateCharge short s c).2 = s ∨ ∃ id params, c.Started short id params ∧
      (Adapter.initiateCharge short s c).2 =
        { s with correlations := Function.update s.correlations id (some params.record) } := by
  unfold Adapter.initiateCharge
  cases hparams : Adapter.chargeParams short c.input with
  | error e => exact .inl rfl
  | ok params =>
    cases hreply : c.reply with
    | error e => exact .inl rfl
    | ok res =>
      dsimp only
      have hstarted : c.Started short res.checkoutRequestID params := ⟨hparams, res, hreply, rfl⟩
      split
      · next s' hwrite =>
        exact (write_world hwrite).imp_right fun h => ⟨_, params, hstarted, h⟩
      · next m s' hwrite =>
        exact (write_world hwrite).imp_right fun h => ⟨_, params, hstarted, h⟩
      · exact .inl rfl

theorem Correlated.mono {short : String} {moves more : List (Move Request Choice Happening)} {s s' : World}
    (h : Correlated short moves s) (hsame : ∀ id rec, s'.correlations id = some rec → s.correlations id = some rec) :
    Correlated short (moves ++ more) s' := by
  intro id rec hrec
  obtain ⟨c, params, hmem, hstarted, heq⟩ := h id rec (hsame id rec hrec)
  exact ⟨c, params, List.mem_append_left _ hmem, hstarted, heq⟩

theorem Correlated.happen {short : String} {moves : List (Move Request Choice Happening)} {s : World}
    (h : Correlated short moves s) (d : Happening) : Correlated short (moves ++ [.drift d]) (happen short s d) := by
  cases d with
  | charge c =>
    rcases initiateCharge_cases short s c with heq | ⟨id, params, hstarted, heq⟩
    · exact h.mono fun id rec hrec => by rwa [Settle.happen, heq] at hrec
    · intro id' rec hrec
      rw [Settle.happen, heq] at hrec
      dsimp only at hrec
      by_cases hid : id' = id
      · subst hid
        rw [Function.update_self] at hrec
        exact ⟨c, params, List.mem_append_right _ List.mem_cons_self, hstarted, (Option.some.inj hrec).symm⟩
      · rw [Function.update_of_ne hid] at hrec
        obtain ⟨c', params', hmem, hrest⟩ := h id' rec hrec
        exact ⟨c', params', List.mem_append_left _ hmem, hrest⟩
  | expireCorrelation id =>
    refine h.mono fun id' rec hrec => ?_
    simp only [Settle.happen, drift] at hrec
    by_cases hid : id' = id
    · subst hid
      rw [Function.update_self] at hrec
      cases hrec
    · rwa [Function.update_of_ne hid] at hrec
  | expireSlot key => exact h.mono fun _ _ hrec => hrec
  | restart => exact h.mono fun _ _ hrec => hrec

theorem correlated (D : Deployment) (short : String) (moves : List (Move Request Choice Happening)) :
    Correlated short moves ((charging D short).exec {} moves).shared := by
  induction moves using List.reverseRecOn with
  | nil => exact fun _ _ h => by cases h
  | append_singleton moves m ih =>
    rw [System.exec_snoc]
    generalize (charging D short).exec {} moves = c at ih
    rcases (charging D short).step_cases c m with
      ⟨r, -, hstep⟩ | ⟨n, e, r, i, k, a, s, -, -, hserve, hstep⟩ | ⟨w, rfl, hstep⟩ | hstep
    · rw [hstep]
      exact ih.mono fun _ _ hrec => hrec
    · rw [hstep]
      have hsame : s.correlations = c.shared.correlations := serve_correlations (r := r) hserve
      exact ih.mono fun id rec hrec => by rwa [hsame] at hrec
    · rw [hstep]
      exact ih.happen w
    · rw [hstep]
      exact ih.mono fun _ _ hrec => hrec

section
variable {D : Deployment} {short : String} {moves : List (Move Request Choice Happening)}

theorem sender_gated {n : Nat} {q : Request} {prog : Proc Returned}
    (hproc : ((charging D short).exec {} moves).procs[n]? = some (q, prog)) {before after : List Made}
    {tx : SettlementTx} {reply : Rpc String}
    (hlog : ((charging D short).events n {} moves).map Lib.Event.made =
      before ++ ⟨.sendTransaction tx, reply⟩ :: after) :
    ∃ p, Submitted D q before p ∧ Gated D p tx before := by
  have hpath := ((charging D short).path {} moves n).1 q prog hproc
  rw [hlog] at hpath
  cases q with
  | callback cb =>
    rcases Prog.Path.of_bind_made hpath with ⟨after', p', h⟩ | ⟨res, first, rest, -, -, h⟩
    · exact callback_gated h
    · simpa using (Prog.Path.of_ret h).1
  | submit idemKey raw =>
    rcases Prog.Path.of_bind_made hpath with ⟨after', p', h⟩ | ⟨res, first, rest, -, -, h⟩
    · obtain ⟨p, hparse, hgated⟩ := server_gated h
      exact ⟨p, .submit hparse, hgated⟩
    · simpa using (Prog.Path.of_ret h).1

theorem signer_charged {m : Nat} {cb : Adapter.CallbackResult} {prog : Proc Returned}
    (hproc : ((charging D short).exec {} moves).procs[m]? = some (.callback cb, prog)) {unsigned : Proof} {sig : String}
    (hsign : ⟨.sign unsigned, .ok sig⟩ ∈ ((charging D short).events m {} moves).map Lib.Event.made) :
    cb.succeeded = true ∧ ∃ c params now, Move.drift (.charge c) ∈ moves ∧
      c.Started short cb.checkoutRequestID params ∧ (cb.amount = 0 ∨ cb.amount = params.amount) ∧
      unsigned = Adapter.proofOf cb params.record now := by
  have hpath := ((charging D short).path {} moves m).1 _ prog hproc
  have hcallback : ∃ q, (Adapter.handleCallback D cb).Path (((charging D short).events m {} moves).map Lib.Event.made) q := by
    rcases Prog.Path.of_bind hpath with ⟨p', h, -⟩ | ⟨res, log₁, log₂, hlog, h, hret⟩
    · exact ⟨p', h⟩
    · rw [(Prog.Path.of_ret hret).1, List.append_nil] at hlog
      exact ⟨_, hlog ▸ h⟩
  obtain ⟨q, hq⟩ := hcallback
  obtain ⟨rec, now, hget, hsucceeded, hamount, rfl⟩ := signed_of_path hq hsign
  obtain ⟨first, choice, rest, r, w, rfl, hserve, -⟩ := System.of_made hget
  -- the record was there when it was read
  have hrec : ((charging D short).exec {} first).shared.correlations cb.checkoutRequestID = some rec := by
    change serveCorrelationGet m _ _ choice = _ at hserve
    cases choice <;> simp only [serveCorrelationGet, reduceCtorEq] at hserve
    · split at hserve
      · next rec' hfound =>
        cases hserve
        exact hfound
      · cases hserve
    · cases hserve
  obtain ⟨c, params, hmem, hstarted, rfl⟩ := correlated D short first _ _ hrec
  exact ⟨hsucceeded, c, params, now, List.mem_append_left _ hmem, hstarted, hamount, rfl⟩
end

/-- **Amount integrity from the rail to the chain.** -/
theorem amount_integrity (D : Deployment) (hcheck : D.crossCheck = true) (short : String)
    (moves : List (Move Request Choice Happening)) (n : Nat) (q : Request) (prog : Proc Returned)
    (hproc : ((charging D short).exec {} moves).procs[n]? = some (q, prog)) (before after : List Made)
    (tx : SettlementTx) (reply : Rpc String)
    (hlog : ((charging D short).events n {} moves).map Lib.Event.made =
      before ++ ⟨.sendTransaction tx, reply⟩ :: after) :
    ∃ p, Submitted D q before p ∧ tx.payLinkID = hexToHash p.payLinkID ∧ tx.proofHash = p.hash D.env ∧
      ∀ m cb prog' unsigned sig, ((charging D short).exec {} moves).procs[m]? = some (.callback cb, prog') →
        ⟨.sign unsigned, .ok sig⟩ ∈ ((charging D short).events m {} moves).map Lib.Event.made →
        canonicalBytes unsigned = canonicalBytes p → cb.amount ≠ 0 →
        cb.succeeded = true ∧ ∃ c params pl, Move.drift (.charge c) ∈ moves ∧
          c.Started short cb.checkoutRequestID params ∧ params.payLinkID = p.payLinkID ∧ cb.amount = params.amount ∧
          ⟨.getPayLink p.payLinkID, .result pl⟩ ∈ before ∧ pl.amount = cb.amount := by
  obtain ⟨p, hsubmitted, hgated⟩ := sender_gated hproc hlog
  refine ⟨p, hsubmitted, hgated.payLinkID, hgated.proofHash, ?_⟩
  intro m cb prog' unsigned sig hcallback hsign hsame hreported
  obtain ⟨hsucceeded, c, params, now, hmem, hstarted, hamount, rfl⟩ := signer_charged hcallback hsign
  have hpaid : cb.amount = params.amount := hamount.resolve_left hreported
  obtain ⟨pl, hget, -, hequal, -⟩ := hgated.payable hcheck
  -- the proof is the signed one but for its signature
  have hfields := canonicalBytes_inj hsame
  have hpayLink : params.payLinkID = p.payLinkID := congrArg Proof.payLinkID hfields
  have hproof : params.amount = p.amount := congrArg Proof.amount hfields
  exact ⟨hsucceeded, c, params, pl, hmem, hstarted, hpayLink, hpaid, hget, by rw [hequal, hpaid, hproof]⟩

namespace Devnet
def charge : Adapter.Charge where
  input := { payLinkID := payLinkID, amount := 10000, payerPhone := "254708374149" }
  reply := .ok { merchantRequestID := "29115-34620561-1", checkoutRequestID := callback.checkoutRequestID }
  stored := .ok

def chargeRun (cb : Adapter.CallbackResult) : List (Move Request Choice Happening) :=
  let choices := upToCrossCheck first ++
    ([.ok, .ok, .nonce (.result 1), .ok, .ok, .sent (.result "0x01ed4a37") true] : List Choice)
  .drift (.charge charge) :: .start (.callback cb) :: choices.map (.run 0)

def unreported : Adapter.CallbackResult := { callback with amount := 0 }

def sendsFirst (x : Made) : Bool :=
  match x.1 with
  | .sendTransaction tx => tx == firstSettlement
  | _ => false

theorem chargeRun_sends : ∃ before reply after,
    ((charging deployment "600000").events 0 {} (chargeRun callback)).map Lib.Event.made =
      before ++ ⟨.sendTransaction firstSettlement, reply⟩ :: after := by
  have hany : (((charging deployment "600000").events 0 {} (chargeRun callback)).map Lib.Event.made).any sendsFirst =
      true := by
    decide +kernel
  obtain ⟨⟨i, a⟩, hmem, hsends⟩ := List.any_eq_true.mp hany
  obtain ⟨before, after, hsplit⟩ := List.append_of_mem hmem
  cases i with
  | sendTransaction tx =>
    obtain rfl : tx = firstSettlement := by simpa [sendsFirst] using hsends
    exact ⟨before, a, after, hsplit⟩
  | _ => cases hsends

theorem chargeRun_proc : ∃ prog,
    ((charging deployment "600000").exec {} (chargeRun callback)).procs[0]? = some (.callback callback, prog) := by
  have hfirst : ((charging deployment "600000").exec {} (chargeRun callback)).procs[0]?.map (·.1) =
      some (.callback callback) := by
    decide +kernel
  obtain ⟨⟨q, prog⟩, hproc, rfl⟩ := Option.map_eq_some_iff.mp hfirst
  exact ⟨prog, hproc⟩
end Devnet

theorem amount_integrity_charged : ∃ c params pl, Move.drift (.charge c) ∈ Devnet.chargeRun Devnet.callback ∧
      c.Started "600000" Devnet.callback.checkoutRequestID params ∧ Devnet.callback.amount = params.amount ∧
      (pl : PayLinkState).amount = Devnet.callback.amount := by
  obtain ⟨before, reply, after, hlog⟩ := Devnet.chargeRun_sends
  obtain ⟨prog, hproc⟩ := Devnet.chargeRun_proc
  obtain ⟨p, hsubmitted, -, -, hcharged⟩ := amount_integrity Devnet.deployment rfl "600000"
    (Devnet.chargeRun Devnet.callback) 0 _ prog hproc before after Devnet.firstSettlement reply hlog
  cases hsubmitted with
  | @callback _ _ unsigned _ sig signed parsed =>
    have hmem : ⟨.sign unsigned, .ok sig⟩ ∈ ((charging Devnet.deployment "600000").events 0 {}
        (Devnet.chargeRun Devnet.callback)).map Lib.Event.made := by
      rw [hlog]
      exact List.mem_append_left _ signed
    have hsame : canonicalBytes unsigned = canonicalBytes p := by
      unfold Server.parse at parsed
      split at parsed
      · cases parsed
      · cases parsed
      · next hdecode =>
        obtain rfl := Except.ok.inj parsed
        rw [Devnet.decodesWire _ _ _ hdecode]
        rfl
    obtain ⟨-, c, params, pl, hcharge, hstarted, -, hpaid, -, hchain⟩ :=
      hcharged 0 Devnet.callback prog unsigned sig hproc hmem hsame (by decide)
    exact ⟨c, params, pl, hcharge, hstarted, hpaid, hchain⟩

/-- A settlement is sent for a payment of which the rail reported no amount. -/
theorem unreported_amount_settles :
    let run := (charging Devnet.deployment "600000").exec {} (Devnet.chargeRun Devnet.unreported)
    run.procs[0]?.map (·.1) = some (.callback Devnet.unreported) ∧
      (0, Event.sent Devnet.firstSettlement true) ∈ run.shared.log ∧ Devnet.unreported.succeeded = true ∧
      Devnet.unreported.amount ≠ Devnet.charge.input.amount ∧
      Devnet.unreported.amount ≠ Devnet.openPayLink.amount := by
  decide +kernel

end LinkMint.Settle
