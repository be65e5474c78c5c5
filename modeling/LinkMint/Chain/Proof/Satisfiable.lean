import LinkMint.Chain.Devnet

/-!
# Accepted rules can be met

`accepted_rule_satisfiable`: an accepted rule can be met whatever the action if and only if it is
`Consistent`. The validator leaves out exactly two comparisons, which `accepted_rule_unsatisfiable`
shows; that the rules of one PayLink can be met together is not claimed.
-/

namespace LinkMint.Chain

/-- The two comparisons the validator leaves out: a time lock with both bounds set ends after it
    begins, and a multiple approval names enough different approvers. -/
def Consistent (env : Env) (rule : Rule) : Prop :=
  (rule.type = .timeLock → ∀ p ∈ (env.decode.timeLock rule.params).toOption,
    0 < p.notBefore → 0 < p.notAfter → p.notBefore ≤ p.notAfter) ∧
  (rule.type = .multiApproval → ∀ p ∈ (env.decode.multiApproval rule.params).toOption,
    p.required.toNat ≤ p.approvers.dedup.length)

instance (env : Env) (rule : Rule) : Decidable (Consistent env rule) :=
  inferInstanceAs (Decidable (_ ∧ _))

/-- Some context with that action, in which no one approves twice, passes the rule. -/
def Satisfiable (env : Env) (rule : Rule) (action : ActionKind) : Prop :=
  ∃ ctx : EvalContext, ctx.action = action ∧ ctx.approvals.Nodup ∧ evaluateOne env rule ctx = .ok ()

theorem of_mem_toOption {ε α : Type} {x : Except ε α} {a : α} (h : a ∈ x.toOption) : x = .ok a := by
  cases x with
  | error e => cases h
  | ok b => cases h; rfl

section
variable {env : Env} {params : Bytes} (action : ActionKind)

theorem evalTimeLock_passes {p : TimeLockParams} (hp : env.decode.timeLock params = .ok p)
    (hopen : 0 < p.notBefore → 0 < p.notAfter → p.notBefore ≤ p.notAfter) :
    ∃ ts, evalTimeLock env params { action, blockTimestamp := ts, sender := 0, amount := 0 } = .ok () := by
  by_cases hbefore : 0 < p.notBefore
  · refine ⟨p.notBefore, ?_⟩
    have hafter : ¬ (p.notAfter > 0 ∧ p.notBefore > p.notAfter) := by
      intro ⟨hpos, hlt⟩
      exact Int64.not_lt.mpr (hopen hbefore hpos) hlt
    simp [evalTimeLock, hp, bind, Except.bind, hafter]
  · refine ⟨0, ?_⟩
    have hafter : ¬ (p.notAfter > 0 ∧ 0 > p.notAfter) := by
      intro ⟨hpos, hlt⟩
      exact Int64.lt_asymm hpos hlt
    simp [evalTimeLock, hp, bind, Except.bind, hbefore, hafter]

theorem evalMultiApproval_passes {p : MultiApprovalParams} (hp : env.decode.multiApproval params = .ok p)
    (henough : p.required.toNat ≤ p.approvers.dedup.length) : evalMultiApproval env params
      { action, blockTimestamp := 0, sender := 0, amount := 0, approvals := p.approvers.dedup } = .ok () := by
  have hcount : p.approvers.dedup.countP (· ∈ p.approvers) = p.approvers.dedup.length := by
    rw [List.countP_eq_length]
    intro a ha
    exact decide_eq_true (List.mem_dedup.mp ha)
  simp [evalMultiApproval, hp, bind, Except.bind, hcount, Nat.not_lt.mpr henough]

theorem evalTimeLock_opens {p : TimeLockParams} {ctx : EvalContext}
    (hp : env.decode.timeLock params = .ok p) (haction : ctx.action ∈ p.actions)
    (hpasses : evalTimeLock env params ctx = .ok ()) (hbefore : 0 < p.notBefore)
    (hafter : 0 < p.notAfter) : p.notBefore ≤ p.notAfter := by
  simp only [evalTimeLock, hp, bind, Except.bind, haction, not_true_eq_false, if_false] at hpasses
  split at hpasses
  · cases hpasses
  · next hfrom =>
    split at hpasses
    · cases hpasses
    · next huntil =>
      exact Int64.le_trans (Int64.not_lt.mp fun h => hfrom ⟨hbefore, h⟩)
        (Int64.not_lt.mp fun h => huntil ⟨hafter, h⟩)

/-- Of approvals that differ, no more count than there are different approvers. -/
theorem evalMultiApproval_enough {p : MultiApprovalParams} {ctx : EvalContext}
    (hp : env.decode.multiApproval params = .ok p) (haction : ctx.action = .settle)
    (hnodup : ctx.approvals.Nodup) (hpasses : evalMultiApproval env params ctx = .ok ()) :
    p.required.toNat ≤ p.approvers.dedup.length := by
  simp only [evalMultiApproval, hp, bind, Except.bind, haction, ne_eq, not_true_eq_false,
    if_false] at hpasses
  split at hpasses
  · cases hpasses
  · next henough =>
    refine (Nat.not_lt.mp henough).trans ?_
    rw [List.countP_eq_length_filter]
    refine ((hnodup.filter _).subperm fun a ha => ?_).length_le
    exact List.mem_dedup.mpr (of_decide_eq_true (List.mem_filter.mp ha).2)

theorem evalAmountThreshold_passes {p : AmountThresholdParams} (hp : env.decode.amountThreshold params = .ok p)
    (hvalid : ¬ (p.minAmount > 0 ∧ p.maxAmount > 0 ∧ p.minAmount > p.maxAmount)) :
    evalAmountThreshold env params { action, blockTimestamp := 0, sender := 0, amount := p.minAmount } = .ok () := by
  have hmax : ¬ (p.maxAmount > 0 ∧ p.minAmount > p.maxAmount) := by
    intro ⟨hpos, hlt⟩
    exact hvalid ⟨UInt64.lt_trans hpos hlt, hpos, hlt⟩
  simp [evalAmountThreshold, hp, bind, Except.bind, hmax]

theorem evalAddressWhitelist_passes {p : AddressWhitelistParams} {addr : Address}
    (hp : env.decode.addressWhitelist params = .ok p) (hmem : addr ∈ p.addresses) :
    evalAddressWhitelist env params { action, blockTimestamp := 0, sender := addr, amount := 0 } = .ok () := by
  simp [evalAddressWhitelist, hp, bind, Except.bind, hmem]

theorem evalReceiverWhitelist_passes {p : ReceiverWhitelistParams} {addr : Address}
    (hp : env.decode.receiverWhitelist params = .ok p) (hmem : addr ∈ p.addresses) : evalReceiverWhitelist env params
      { action, blockTimestamp := 0, sender := 0, receiver := addr, amount := 0 } = .ok () := by
  simp [evalReceiverWhitelist, hp, bind, Except.bind, hmem]

theorem evalMaxTransfers_passes {p : MaxTransfersParams} (hp : env.decode.maxTransfers params = .ok p)
    (hvalid : p.max ≠ 0) :
    evalMaxTransfers env params { action, blockTimestamp := 0, sender := 0, amount := 0 } = .ok () := by
  simp [evalMaxTransfers, hp, bind, Except.bind, hvalid]
end

theorem Consistent.satisfiable {env : Env} {rule : Rule} (hconsistent : Consistent env rule)
    (haccepted : validateOne env rule = .ok ()) (action : ActionKind) :
    Satisfiable env rule action := by
  obtain ⟨hlock, happrovals⟩ := hconsistent
  unfold Satisfiable
  simp only [validateOne] at haccepted
  simp only [evaluateOne]
  -- the validator has decoded the same parameters
  split at haccepted
  · next htype =>
    obtain ⟨p, hp, -⟩ := Lib.bind_eq_ok.mp haccepted
    obtain ⟨ts, hts⟩ := evalTimeLock_passes action hp (hlock htype p (by rw [hp]; rfl))
    exact ⟨_, rfl, List.nodup_nil, hts⟩
  · next htype =>
    obtain ⟨p, hp, -⟩ := Lib.bind_eq_ok.mp haccepted
    exact ⟨_, rfl, List.nodup_dedup _,
      evalMultiApproval_passes action hp (happrovals htype p (by rw [hp]; rfl))⟩
  · obtain ⟨p, hp, hvalid⟩ := Lib.bind_eq_ok.mp haccepted
    split at hvalid
    · cases hvalid
    · next hbounds => exact ⟨_, rfl, List.nodup_nil, evalAmountThreshold_passes action hp hbounds⟩
  · obtain ⟨p, hp, hvalid⟩ := Lib.bind_eq_ok.mp haccepted
    split at hvalid
    · cases hvalid
    · next hne =>
      obtain ⟨addr, hmem⟩ := List.exists_mem_of_length_pos (Nat.pos_of_ne_zero hne)
      exact ⟨_, rfl, List.nodup_nil, evalAddressWhitelist_passes action hp hmem⟩
  · obtain ⟨p, hp, hvalid⟩ := Lib.bind_eq_ok.mp haccepted
    split at hvalid
    · cases hvalid
    · next hne =>
      obtain ⟨addr, hmem⟩ := List.exists_mem_of_length_pos (Nat.pos_of_ne_zero hne)
      exact ⟨_, rfl, List.nodup_nil, evalReceiverWhitelist_passes action hp hmem⟩
  · obtain ⟨p, hp, hvalid⟩ := Lib.bind_eq_ok.mp haccepted
    split at hvalid
    · cases hvalid
    · next hne => exact ⟨_, rfl, List.nodup_nil, evalMaxTransfers_passes action hp hne⟩
  · cases haccepted

/-- **When an accepted rule can be met**, for every action kind: exactly if it is consistent. -/
theorem accepted_rule_satisfiable (env : Env) (rule : Rule)
    (haccepted : validateOne env rule = .ok ()) :
    (∀ action, Satisfiable env rule action) ↔ Consistent env rule := by
  refine ⟨fun h => ⟨fun htype p hp => ?_, fun htype p hp => ?_⟩,
    fun h => h.satisfiable haccepted⟩
  · replace hp := of_mem_toOption hp
    -- the list of actions is not empty, and one of them meets the lock
    simp only [validateOne, htype, hp, bind, Except.bind] at haccepted
    split at haccepted
    · cases haccepted
    · next hne =>
      obtain ⟨action, haction⟩ := List.exists_mem_of_length_pos (Nat.pos_of_ne_zero hne)
      obtain ⟨ctx, rfl, -, hpasses⟩ := h action
      simp only [evaluateOne, htype] at hpasses
      exact evalTimeLock_opens hp haction hpasses
  · replace hp := of_mem_toOption hp
    obtain ⟨ctx, haction, hnodup, hpasses⟩ := h .settle
    simp only [evaluateOne, htype] at hpasses
    exact evalMultiApproval_enough hp haction hnodup hpasses

def lockJSON (notBefore notAfter : String) : Bytes :=
  ("\x7b\"notBefore\":" ++ notBefore ++ ",\"notAfter\":" ++ notAfter ++ ",\"actions\":[\"settle\"]\x7d").toUTF8.toList

def sameTwiceJSON : Bytes :=
  ("\x7b\"required\":2,\"approvers\":[\"0x0000000000000000000000000000000000000001\"," ++
    "\"0x0000000000000000000000000000000000000001\"]\x7d").toUTF8.toList

def paramsEnv : Env :=
  { Devnet.env with
    decode :=
      { Devnet.env.decode with
        timeLock := fun data =>
          if data = lockJSON "100" "200" then .ok ⟨100, 200, [.settle]⟩
          else if data = lockJSON "200" "100" then .ok ⟨200, 100, [.settle]⟩
          else .error "unexpected end of JSON input"
        multiApproval := fun data =>
          if data = sameTwiceJSON then .ok ⟨2, [1, 1]⟩ else .error "unexpected end of JSON input" } }

theorem accepted_lock_satisfiable :
    validateOne paramsEnv ⟨.timeLock, lockJSON "100" "200"⟩ = .ok () ∧
      Satisfiable paramsEnv ⟨.timeLock, lockJSON "100" "200"⟩ .settle :=
  ⟨by decide +kernel, (accepted_rule_satisfiable paramsEnv ⟨.timeLock, lockJSON "100" "200"⟩
    (by decide +kernel)).mpr (by decide +kernel) .settle⟩

/-- **A time lock that ends before it begins, and approvals that repeat an approver, are
    accepted**: no settlement passes either. -/
theorem accepted_rule_unsatisfiable : (validateOne paramsEnv ⟨.timeLock, lockJSON "200" "100"⟩ = .ok () ∧
      ¬ Satisfiable paramsEnv ⟨.timeLock, lockJSON "200" "100"⟩ .settle) ∧
    validateOne paramsEnv ⟨.multiApproval, sameTwiceJSON⟩ = .ok () ∧
      ¬ Satisfiable paramsEnv ⟨.multiApproval, sameTwiceJSON⟩ .settle := by
  refine ⟨⟨by decide +kernel, ?_⟩, by decide +kernel, ?_⟩
  · rintro ⟨ctx, haction, -, hpasses⟩
    have hp : paramsEnv.decode.timeLock (lockJSON "200" "100") = .ok ⟨200, 100, [.settle]⟩ :=
      (if_neg (by decide +kernel)).trans (if_pos rfl)
    exact absurd (evalTimeLock_opens hp (by simp [haction]) hpasses (by decide) (by decide))
      (by decide)
  · rintro ⟨ctx, haction, hnodup, hpasses⟩
    have hp : paramsEnv.decode.multiApproval sameTwiceJSON = .ok ⟨2, [1, 1]⟩ := if_pos rfl
    exact absurd (evalMultiApproval_enough hp haction hnodup hpasses) (by decide)

end LinkMint.Chain
