import LinkMint.Escrows.Proof.Safety

/-!
# No release is missed

A release is attempted by whichever of the payment and the confirmations comes last.
-/

namespace LinkMint.Escrows

open LinkMint.Lib

variable {D : Deployment}

def Escrow.MetBy (e : Escrow) (who : String → Prop) : Prop :=
  match e.conditionType with
  | .deliveryConfirmation => who e.creatorAddr
  | .timeLock => False
  | .multiPartyApproval =>
    ∃ confirmed : List String, confirmed.Nodup ∧ (∀ a ∈ confirmed, a ∈ e.conditionParams.approvers ∧ who a) ∧
      e.conditionParams.threshold ≤ confirmed.length

theorem Escrow.MetBy.satisfied {e : Escrow} {approvals : List String} (h : e.MetBy (· ∈ approvals)) (t : Int) :
    e.conditionType ≠ .timeLock ∧ e.conditionSatisfied approvals t = true := by
  unfold MetBy at h
  unfold conditionSatisfied
  cases htype : e.conditionType with
  | deliveryConfirmation =>
    rw [htype] at h
    exact ⟨by simp, List.contains_iff_mem.mpr h⟩
  | timeLock =>
    rw [htype] at h
    exact h.elim
  | multiPartyApproval =>
    rw [htype] at h
    obtain ⟨confirmed, hnodup, hmem, hlen⟩ := h
    refine ⟨by simp, decide_eq_true ?_⟩
    have hsub : confirmed ⊆ e.conditionParams.approvers.filter approvals.contains := by
      intro a ha
      rw [List.mem_filter, List.contains_iff_mem]
      exact hmem a ha
    have hle := (List.subperm_of_subset hnodup hsub).length_le
    omega

theorem Escrow.MetBy.mono {e : Escrow} {who who' : String → Prop} (creator : e.creatorAddr ≠ "")
    (approvers : "" ∉ e.conditionParams.approvers) (h : e.MetBy who)
    (himp : ∀ a, a ≠ "" → who a → who' a) : e.MetBy who' := by
  unfold MetBy at h ⊢
  cases htype : e.conditionType with
  | deliveryConfirmation =>
    rw [htype] at h
    exact himp _ creator h
  | timeLock =>
    rw [htype] at h
    exact h.elim
  | multiPartyApproval =>
    rw [htype] at h
    obtain ⟨confirmed, hnodup, hmem, hlen⟩ := h
    refine ⟨confirmed, hnodup, fun a ha => ?_, hlen⟩
    obtain ⟨happrover, hwho⟩ := hmem a ha
    exact ⟨happrover, himp a (ne_of_mem_of_not_mem happrover approvers) hwho⟩

def Choice.dbTime : Choice → Int
  | .ok _ dbTime | .lost _ _ dbTime _ => dbTime
  | .failed _ _ _ | .text _ => 0

def Confirms (id caller : String) (c : Config Op Op.Answer Request World Reply) : Move Request Choice Empty → Prop
  | .run n e =>
    e.committed = true ∧ c.next? n = some (.mutate id (.confirm caller)) ∧
      (c.shared.db.mutate id (Service.confirmFn caller e.time) e.dbTime).isOk = true
  | _ => False

instance (id caller : String) (c : Config Op Op.Answer Request World Reply)
    (m : Move Request Choice Empty) : Decidable (Confirms id caller c m) :=
  match m with
  | .run _ _ => inferInstanceAs (Decidable (_ ∧ _ ∧ _))
  | .start _ | .drift _ => .isFalse not_false

def Op.funds (id : String) (db : DB) : Op → Bool
  | .applyFunding plID txHash =>
    !db.processed.contains (DB.dedupeKey plID txHash) &&
      (db.byPayLink plID).any fun r => r.escrow.id == id && r.escrow.state == .waiting
  | _ => false

def Funds (id : String) (c : Config Op Op.Answer Request World Reply) : Move Request Choice Empty → Prop
  | .run n e => e.committed = true ∧ (c.next? n).any (Op.funds id c.shared.db) = true
  | _ => False

instance (id : String) (c : Config Op Op.Answer Request World Reply)
    (m : Move Request Choice Empty) : Decidable (Funds id c m) :=
  match m with
  | .run _ _ => inferInstanceAs (Decidable (_ ∧ _))
  | .start _ | .drift _ => .isFalse not_false

theorem transact_committed {α : Type} (s : World) (run : (clock dbTime : Int) → Except Error (α × DB))
    {c : Choice} {x : α} {db : DB} (hc : c.committed = true) (h : run c.time c.dbTime = .ok (x, db)) :
    ∃ a, transact s run c = some (a, { s with db := db }) := by
  cases c with
  | ok clock dbTime =>
    simp only [Choice.time, Choice.dbTime] at h
    exact ⟨.ok x, by simp only [transact, h]⟩
  | lost seen clock dbTime m =>
    simp only [Choice.time, Choice.dbTime] at h
    exact ⟨.error (.plain m), by simp only [transact, h]⟩
  | failed seen dbTime m => cases hc
  | text s => cases hc

variable {c : Config Op Op.Answer Request World Reply}

theorem step_served {n : Nat} {e : Choice} {q : Request} {i : Op} {k : i.Answer → Prog Op Op.Answer Reply}
    {a : i.Answer} {s : World} (hn : c.procs[n]? = some (q, .call i k)) (h : perform c.shared i e = some (a, s)) :
    ((system D).step c (.run n e)).shared = s := by
  have hserve : (system D).serve n q c.shared i e = some (a, s) := h
  simp only [System.step, hn, hserve]

theorem confirmFn_ok {caller : String} {t : Int} {e : Escrow} {approvals : List String} {up : Update}
    {left : Left} (h : Service.confirmFn caller t e approvals = .ok (up, left)) :
    e.state = .waiting ∧ up.addApproval = caller ∧ (up.setState = none ∨ up.setState = some .released) := by
  simp only [Service.confirmFn, Service.tryRelease_eq] at h
  split at h
  · cases h
  · split at h
    · cases h
    · next hstate =>
      rw [not_not] at hstate
      split at h
      · next heq =>
        split at heq
        · cases heq
          cases h
          exact ⟨hstate, rfl, .inr rfl⟩
        · cases heq
      · cases h
        exact ⟨hstate, rfl, .inl rfl⟩

theorem state_updateOf {r : Row} {up : Update} (u : Int) (waits : r.escrow.state = .waiting)
    (h : up.setState = none ∨ up.setState = some .released) :
    (DB.updateOf r up u).escrow.state = .waiting ∨ (DB.updateOf r up u).escrow.state = .released := by
  simp only [DB.updateOf]
  split
  · exact .inl waits
  · rcases h with h | h
    · exact .inl (by simp [DB.updateEscrow, h, waits])
    · exact .inr (by simp [DB.updateEscrow, h])

theorem confirms_step {m : Move Request Choice Empty} {id caller : String} (h : Confirms id caller c m) :
    ∃ r', ((system D).step c m).shared.db.rows[id]? = some r' ∧
      (r'.escrow.state = .waiting ∨ r'.escrow.state = .released) ∧ (caller ≠ "" → caller ∈ r'.approvals) := by
  cases m with
  | run n e =>
    obtain ⟨hcommitted, hnext, hok⟩ := h
    obtain ⟨q, k, hn⟩ := Config.next?_eq_some hnext
    obtain ⟨⟨x, db⟩, hmutate⟩ : ∃ y, c.shared.db.mutate id (Service.confirmFn caller e.time) e.dbTime = .ok y := by
      generalize c.shared.db.mutate id (Service.confirmFn caller e.time) e.dbTime = o at hok
      cases o with
      | ok y => exact ⟨y, rfl⟩
      | error err => cases hok
    obtain ⟨a, hserved⟩ := transact_committed c.shared
      (fun clock dbTime => c.shared.db.mutate id (Service.confirmFn caller clock) dbTime)
      hcommitted hmutate
    rw [step_served (D := D) hn hserved]
    obtain ⟨r, up, hr, hfn, -, rfl⟩ := mutate_cases hmutate
    obtain ⟨hwaits, hadd, hset⟩ := confirmFn_ok hfn
    refine ⟨DB.updateOf r up e.dbTime, ?_, state_updateOf _ hwaits hset, fun hne => ?_⟩
    · simp only [DB.rows_put, DB.id_updateOf, c.shared.db.keyed id r hr, if_pos]
    · simp only [DB.updateOf, hadd, if_pos hne]
      exact mem_appendApproval.mpr (.inr rfl)
  | start q => exact h.elim
  | drift w => exact h.elim

theorem fundingFn_ok (txHash : String) (t : Int) {e : Escrow} (approvals : List String) (waits : e.state = .waiting) :
    ∃ up left, Service.fundingFn txHash t e approvals = .ok (up, left) ∧ (up.setFunded = true ∨ e.funded = true) ∧
      (up.setState = none ∨ up.setState = some .released) := by
  simp only [Service.fundingFn, Service.tryRelease_eq, waits, ne_eq, not_true_eq_false, if_false, true_and]
  cases e.funded <;> cases e.conditionSatisfied approvals t <;> simp

theorem Op.of_funds {id : String} {db : DB} {i : Op} (h : i.funds id db = true) :
    ∃ plID txHash, i = .applyFunding plID txHash ∧ db.processed.contains (DB.dedupeKey plID txHash) = false ∧
      ∃ r, db.byPayLink plID = some r ∧ r.escrow.id = id ∧ r.escrow.state = .waiting := by
  unfold Op.funds at h
  split at h
  · next plID txHash =>
    simp only [Bool.and_eq_true, Bool.not_eq_true', Option.any_eq_true, beq_iff_eq] at h
    exact ⟨plID, txHash, rfl, h⟩
  · cases h

theorem funds_step {m : Move Request Choice Empty} {id : String} (h : Funds id c m) :
    ∃ r', ((system D).step c m).shared.db.rows[id]? = some r' ∧
      (r'.escrow.state = .waiting ∨ r'.escrow.state = .released) ∧ r'.escrow.funded = true := by
  cases m with
  | run n e =>
    obtain ⟨hcommitted, hany⟩ := h
    rw [Option.any_eq_true] at hany
    obtain ⟨i, hnext, hi⟩ := hany
    obtain ⟨plID, txHash, rfl, hnew, r, hr, rfl, hwaits⟩ := Op.of_funds hi
    obtain ⟨q, k, hn⟩ := Config.next?_eq_some hnext
    obtain ⟨up, left, hfn, hfunded, hset⟩ := fundingFn_ok txHash e.time r.approvals hwaits
    have hrun : ∃ db, c.shared.db.applyFunding plID txHash (Service.fundingFn txHash e.time) e.dbTime =
        .ok (((DB.updateOf r up e.dbTime).escrow, some left), db) ∧
        db.rows = (c.shared.db.put (DB.updateOf r up e.dbTime)).rows := by
      simp only [DB.applyFunding, hr, hnew, hfn, Bool.false_eq_true, if_false]
      exact ⟨_, rfl, rfl⟩
    obtain ⟨db, hrun, hrows⟩ := hrun
    obtain ⟨a, hserved⟩ := transact_committed c.shared
      (fun clock dbTime =>
        c.shared.db.applyFunding plID txHash (Service.fundingFn txHash clock) dbTime)
      hcommitted hrun
    rw [step_served (D := D) hn hserved]
    refine ⟨DB.updateOf r up e.dbTime, ?_, state_updateOf _ hwaits hset, ?_⟩
    · dsimp only
      rw [hrows, DB.rows_put, DB.id_updateOf, if_pos rfl]
    · simp only [DB.updateOf]
      rcases hfunded with hup | hpaid
      · simp [DB.updateEscrow, hup]
      · split
        · exact hpaid
        · simp [DB.updateEscrow, hpaid]
  | start q => exact h.elim
  | drift w => exact h.elim

theorem Change.approvals_kept {t : Int} {r r' : Row} (h : Change t r r') {a : String}
    (ha : a ∈ r.approvals) : a ∈ r'.approvals := by
  have hrecorded : ∀ caller, a ∈ recorded r.approvals caller := by
    intro caller
    unfold recorded
    split
    · exact mem_appendApproval.mpr (.inl ha)
    · exact ha
  cases h with
  | confirm caller => exact hrecorded caller
  | confirmLast caller => exact hrecorded caller
  | keep | dispute | fund | fundLast | releaseDue | refund => exact ha

structure Remembers (id : String) (tr : List (Config Op Op.Answer Request World Reply × Move Request Choice Empty))
    (c : Config Op Op.Answer Request World Reply) : Prop where
  confirmed : ∀ a, a ≠ "" → (∃ e ∈ tr, Confirms id a e.1 e.2) → ∃ r, c.shared.db.rows[id]? = some r ∧ a ∈ r.approvals
  funded : (∃ e ∈ tr, Funds id e.1 e.2) → ∃ r, c.shared.db.rows[id]? = some r ∧ r.escrow.funded = true

theorem row_kept {P : Row → Prop} (hP : ∀ t r r', Change t r r' → P r → P r') {m : Move Request Choice Empty}
    {id : String} (proper : Allowed (fun _ _ _ i _ => Op.Proper i) c m) (h : ∃ r, c.shared.db.rows[id]? = some r ∧ P r) :
    ∃ r, ((system D).step c m).shared.db.rows[id]? = some r ∧ P r := by
  obtain ⟨r, hr, hholds⟩ := h
  obtain ⟨r', hr', rfl | ⟨t, -, hchange⟩⟩ := step_row (D := D) proper hr
  · exact ⟨r', hr', hholds⟩
  · exact ⟨r', hr', hP t r r' hchange hholds⟩

theorem Remembers.step {id : String} {tr : List (Config Op Op.Answer Request World Reply × Move Request Choice Empty)}
    (h : Remembers id tr c) (m : Move Request Choice Empty) (proper : Allowed (fun _ _ _ i _ => Op.Proper i) c m) :
    Remembers id (tr ++ [(c, m)]) ((system D).step c m) where
  confirmed a hne := by
    rintro ⟨e, he, hconfirms⟩
    rcases List.mem_append.mp he with he | he
    · exact row_kept (fun t r r' hchange => hchange.approvals_kept) proper (h.confirmed a hne ⟨e, he, hconfirms⟩)
    · rw [List.mem_singleton] at he
      subst he
      obtain ⟨r', hr', -, hmem⟩ := confirms_step (D := D) hconfirms
      exact ⟨r', hr', hmem hne⟩
  funded := by
    rintro ⟨e, he, hfunds⟩
    rcases List.mem_append.mp he with he | he
    · exact row_kept (fun t r r' hchange hpaid => (hchange.funded_kept hpaid).1) proper (h.funded ⟨e, he, hfunds⟩)
    · rw [List.mem_singleton] at he
      subst he
      obtain ⟨r', hr', -, hpaid⟩ := funds_step (D := D) hfunds
      exact ⟨r', hr', hpaid⟩

theorem remembers_run (id : String) (moves : List (Move Request Choice Empty)) :
    Remembers id (trace (system D).step { shared := {} } moves) ((system D).exec {} moves) := by
  refine trace_induction ⟨?_, ?_⟩ (fun tr c m h hproper => h.step m hproper) moves (proper_run moves {})
  · rintro a - ⟨e, he, -⟩
    cases he
  · rintro ⟨e, he, -⟩
    cases he

theorem Change.asks_kept {t : Int} {r r' : Row} (h : Change t r r') : r'.escrow.conditionType = r.escrow.conditionType ∧
      r'.escrow.conditionParams = r.escrow.conditionParams ∧
      r'.escrow.creatorAddr = r.escrow.creatorAddr := by
  cases h <;> exact ⟨rfl, rfl, rfl⟩

/-- **No release is missed.** -/
theorem no_release_missed (D : Deployment) (moves : List (Move Request Choice Empty)) (id : String)
    (r : Row) (found : ((system D).exec {} moves).shared.db.rows[id]? = some r) :
    (r.escrow.state = .waiting → r.escrow.funded = true → ¬ r.escrow.MetBy (· ∈ r.approvals)) ∧
    ∀ m, r.escrow.creatorAddr ≠ "" →
      (Funds id ((system D).exec {} moves) m ∨ ∃ a, Confirms id a ((system D).exec {} moves) m) →
      (∃ e ∈ trace (system D).step { shared := {} } (moves ++ [m]), Funds id e.1 e.2) →
      r.escrow.MetBy (fun a => ∃ e ∈ trace (system D).step { shared := {} } (moves ++ [m]), Confirms id a e.1 e.2) →
      ∃ r', ((system D).exec {} (moves ++ [m])).shared.db.rows[id]? = some r' ∧ r'.escrow.state = .released := by
  have hmissed : ∀ (moves : List (Move Request Choice Empty)) (r : Row),
      ((system D).exec {} moves).shared.db.rows[id]? = some r →
      r.escrow.state = .waiting → r.escrow.funded = true → ¬ r.escrow.MetBy (· ∈ r.approvals) := by
    intro moves r found hwaits hpaid hmet
    obtain ⟨htype, hsatisfied⟩ := hmet.satisfied 0
    have hpending := (allLegit_run moves id r found).pending hwaits hpaid htype 0
    exact absurd (hsatisfied.symm.trans hpending) (by simp)
  refine ⟨hmissed moves r found, fun m creator hlast hfunds hconfirms => ?_⟩
  have hremembers := remembers_run (D := D) id (moves ++ [m])
  have hexec := (system D).exec_snoc {} moves m
  -- the step leaves the escrow waiting or releases it
  have hstate : ∃ r', ((system D).exec {} (moves ++ [m])).shared.db.rows[id]? = some r' ∧
      (r'.escrow.state = .waiting ∨ r'.escrow.state = .released) := by
    rw [hexec]
    rcases hlast with hlast | ⟨a, hlast⟩
    · obtain ⟨r', hr', hstate, -⟩ := funds_step (D := D) hlast
      exact ⟨r', hr', hstate⟩
    · obtain ⟨r', hr', hstate, -⟩ := confirms_step (D := D) hlast
      exact ⟨r', hr', hstate⟩
  obtain ⟨r', hr', hwaits | hreleased⟩ := hstate
  · -- were it still waiting, it would be paid and confirmed
    exfalso
    have hproper := proper_run (D := D) (moves ++ [m]) {}
    rw [trace_append] at hproper
    have hasks : r'.escrow.conditionType = r.escrow.conditionType ∧
        r'.escrow.conditionParams = r.escrow.conditionParams ∧
        r'.escrow.creatorAddr = r.escrow.creatorAddr := by
      obtain ⟨r'', hr'', hcases⟩ := step_row (D := D)
        (hproper ((system D).exec {} moves, m) (List.mem_append_right _ List.mem_cons_self)) found
      rw [← hexec] at hr''
      obtain rfl := Option.some.inj (hr'.symm.trans hr'')
      rcases hcases with rfl | ⟨t, -, hchange⟩
      · exact ⟨rfl, rfl, rfl⟩
      · exact hchange.asks_kept
    obtain ⟨r₁, hr₁, hpaid⟩ := hremembers.funded hfunds
    obtain rfl := Option.some.inj (hr'.symm.trans hr₁)
    have hmet : r.escrow.MetBy (· ∈ r'.approvals) := by
      refine hconfirms.mono creator (allLegit_run moves id r found).approvers.2 fun a hne ha => ?_
      obtain ⟨r₂, hr₂, hmem⟩ := hremembers.confirmed a hne ha
      obtain rfl := Option.some.inj (hr'.symm.trans hr₂)
      exact hmem
    refine hmissed (moves ++ [m]) r' hr' hwaits hpaid ?_
    unfold Escrow.MetBy
    rw [hasks.1, hasks.2.1, hasks.2.2]
    exact hmet
  · exact ⟨r', hr', hreleased⟩

namespace Sample
def delivery : CreateInput :=
  { input with conditionType := "delivery_confirmation", conditionParams := {} }

def confirmed : List (Move Request Choice Empty) :=
  [.start (.create delivery), .run 0 (.ok 0 0), .run 0 (.text "esc-1"), .run 0 (.ok 0 0), .run 0 (.ok 0 0),
   .start (.confirm "esc-1" "creator"), .run 1 (.ok 1 1), .start (.paylinkVerified "pl-1" "0x1")]

def confirmedRow : Row where
  escrow :=
    { id := "esc-1", plID := "pl-1", creatorAddr := "creator", payeeAddr := "payee", refundTo := "creator",
      amount := "250", currency := "KES", conditionType := .deliveryConfirmation, timeoutAt := 100,
      createdAt := 0, updatedAt := 0 }
  approvals := ["creator"]
end Sample

theorem no_release_missed_payment :
    ∃ r', ((system Sample.deployment).exec {} (Sample.confirmed ++ [.run 2 (.ok 2 2)])).shared.db.rows["esc-1"]? =
        some r' ∧ r'.escrow.state = .released := by
  have found : ((system Sample.deployment).exec {} Sample.confirmed).shared.db.rows["esc-1"]? =
      some Sample.confirmedRow := by
    decide +kernel
  have hlast : Funds "esc-1" ((system Sample.deployment).exec {} Sample.confirmed) (.run 2 (.ok 2 2)) := by
    decide +kernel
  have hfunds : ∃ e ∈ trace (system Sample.deployment).step { shared := {} }
      (Sample.confirmed ++ [.run 2 (.ok 2 2)]), Funds "esc-1" e.1 e.2 := by
    decide +kernel
  have hconfirms : ∃ e ∈ trace (system Sample.deployment).step { shared := {} }
      (Sample.confirmed ++ [.run 2 (.ok 2 2)]), Confirms "esc-1" "creator" e.1 e.2 := by
    decide +kernel
  exact (no_release_missed Sample.deployment Sample.confirmed "esc-1" Sample.confirmedRow found).2
    (.run 2 (.ok 2 2)) (by decide) (.inl hlast) hfunds hconfirms

end LinkMint.Escrows
