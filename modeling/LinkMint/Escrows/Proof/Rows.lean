import LinkMint.Lib.Outcome
import LinkMint.Escrows.Service

/-!
# What a step does to an escrow

`Change` lists what can become of a row, with the guards the code has checked; the invariants of
the following files are proved from it.
-/

namespace LinkMint.Escrows

open LinkMint.Lib

namespace Service
theorem tryRelease_eq (cur : State) (funded satisfied : Bool) : tryRelease cur funded satisfied =
      if cur = .waiting ∧ funded = true ∧ satisfied = true then
        some (.released, [.conditionsMet, .release]) else none := by
  cases cur <;> cases funded <;> cases satisfied <;> rfl

theorem of_apply_dispute {cur next : State} (h : Fsm.newEscrowMachine.apply cur .dispute none = .ok next) :
    (cur = .waiting ∨ cur = .conditionsMet) ∧ next = .disputed := by
  cases cur with
  | waiting => exact ⟨.inl rfl, (Except.ok.inj h).symm⟩
  | conditionsMet => exact ⟨.inr rfl, (Except.ok.inj h).symm⟩
  | released | refunded | disputed => cases h
end Service

def recorded (approvals : List String) (caller : String) : List String :=
  if caller ≠ "" then appendApproval approvals caller else approvals

inductive Change (t : Int) : Row → Row → Prop
  | keep (r : Row) : Change t r r
  | confirm (r : Row) (caller : String) (waits : r.escrow.state = .waiting)
      (may : Service.mayConfirm r.escrow caller = .ok ())
      (pending : ¬ (r.escrow.funded = true ∧
        r.escrow.conditionSatisfied (appendApproval r.approvals caller) t = true)) :
      Change t r { r with approvals := recorded r.approvals caller }
  | confirmLast (r : Row) (caller : String) (u : Int) (waits : r.escrow.state = .waiting)
      (may : Service.mayConfirm r.escrow caller = .ok ()) (paid : r.escrow.funded = true)
      (met : r.escrow.conditionSatisfied (appendApproval r.approvals caller) t = true) :
      Change t r { escrow := { r.escrow with state := .released, updatedAt := u },
                   approvals := recorded r.approvals caller }
  | dispute (r : Row) (reason : String) (u : Int)
      (active : r.escrow.state = .waiting ∨ r.escrow.state = .conditionsMet) :
      Change t r { r with escrow := { r.escrow with state := .disputed, disputeReason := reason, updatedAt := u } }
  | fund (r : Row) (txHash : String) (u : Int) (waits : r.escrow.state = .waiting)
      (unpaid : r.escrow.funded = false)
      (unmet : r.escrow.conditionSatisfied r.approvals t = false) :
      Change t r { r with escrow := { r.escrow with funded := true, fundedTxHash := txHash, updatedAt := u } }
  | fundLast (r : Row) (txHash : String) (u : Int) (waits : r.escrow.state = .waiting)
      (met : r.escrow.conditionSatisfied r.approvals t = true)
      (kept : r.escrow.funded = true → txHash = r.escrow.fundedTxHash) :
      Change t r { r with escrow := { r.escrow with funded := true, fundedTxHash := txHash,
                                                    state := .released, updatedAt := u } }
  | releaseDue (r : Row) (u : Int) (due : DB.releaseDue t r.escrow = true) :
      Change t r { r with escrow := { r.escrow with state := .released, updatedAt := u } }
  | refund (r : Row) (u : Int) (out : DB.timedOut t r.escrow = true) :
      Change t r { r with escrow := { r.escrow with state := .refunded, updatedAt := u } }

def Leaves (r r' : Row) : Prop :=
  (r.escrow.state = .waiting ∨ r.escrow.state = .conditionsMet) ∧ r'.escrow.state ≠ .waiting

section Decisions

variable {r : Row} {up : Update} {left : Left} {t : Int}

theorem change_confirm {caller : String} (u : Int)
    (h : Service.confirmFn caller t r.escrow r.approvals = .ok (up, left)) :
    Change t r (DB.updateOf r up u) ∧ (left.kinds ≠ [] → Leaves r (DB.updateOf r up u)) := by
  simp only [Service.confirmFn, Service.tryRelease_eq] at h
  split at h
  · cases h
  · next hmay =>
    split at h
    · cases h
    · next hstate =>
      rw [not_not] at hstate
      split at h
      · next heq =>
        split at heq
        · next hmet =>
          cases heq
          cases h
          have hnew : DB.updateOf r { addApproval := caller, setState := some .released } u =
              { escrow := { r.escrow with state := .released, updatedAt := u },
                approvals := recorded r.approvals caller } := by
            simp [DB.updateOf, DB.updateEscrow, recorded]
          rw [hnew]
          exact ⟨.confirmLast r caller u hstate hmay hmet.2.1 hmet.2.2, fun _ => ⟨.inl hstate, by simp⟩⟩
        · cases heq
      · next heq =>
        split at heq
        · cases heq
        · next hopen =>
          cases h
          have hnew : DB.updateOf r { addApproval := caller } u =
              { r with approvals := recorded r.approvals caller } := by
            simp [DB.updateOf, recorded]
          rw [hnew]
          exact ⟨.confirm r caller hstate hmay fun hmet => hopen ⟨hstate, hmet⟩, fun hk => absurd rfl hk⟩

theorem change_dispute {caller reason : String} (u : Int)
    (h : Service.disputeFn caller reason r.escrow r.approvals = .ok (up, left)) :
    Change t r (DB.updateOf r up u) ∧ (left.disputed = true → Leaves r (DB.updateOf r up u)) := by
  simp only [Service.disputeFn] at h
  split at h
  · cases h
  · split at h
    · cases h
    · next next hnext =>
      obtain ⟨hactive, rfl⟩ := Service.of_apply_dispute hnext
      cases h
      have hnew : DB.updateOf r { setState := some .disputed, disputeReason := reason } u =
          { r with escrow := { r.escrow with
              state := .disputed
              disputeReason := if reason ≠ "" then reason else r.escrow.disputeReason
              updatedAt := u } } := by
        simp [DB.updateOf, DB.updateEscrow]
      rw [hnew]
      exact ⟨.dispute r _ u hactive, fun _ => ⟨hactive, by simp⟩⟩

theorem change_funding {txHash : String} (u : Int)
    (h : Service.fundingFn txHash t r.escrow r.approvals = .ok (up, left)) :
    Change t r (DB.updateOf r up u) ∧ (left.kinds ≠ [] → Leaves r (DB.updateOf r up u)) := by
  have hkeep : DB.updateOf r {} u = r := by simp [DB.updateOf]
  simp only [Service.fundingFn, Service.tryRelease_eq] at h
  split at h
  · cases h
    rw [hkeep]
    exact ⟨.keep r, fun hk => absurd rfl hk⟩
  · next hstate =>
    rw [not_not] at hstate
    simp only [hstate, true_and] at h
    cases hmet : r.escrow.conditionSatisfied r.approvals t with
    | true =>
      simp only [hmet, if_true] at h
      cases h
      cases hpaid : r.escrow.funded with
      | true =>
        have hnew : DB.updateOf r { setState := some .released } u =
            { r with escrow := { r.escrow with funded := true, fundedTxHash := r.escrow.fundedTxHash,
                                               state := .released, updatedAt := u } } := by
          simp [DB.updateOf, DB.updateEscrow, hpaid]
        simp only [if_true, hnew]
        exact ⟨.fundLast r _ u hstate hmet fun _ => rfl, fun _ => ⟨.inl hstate, by simp⟩⟩
      | false =>
        have hnew : DB.updateOf r { setFunded := true, fundedTxHash := txHash, setState := some .released } u =
            { r with escrow := { r.escrow with funded := true, fundedTxHash := txHash,
                                               state := .released, updatedAt := u } } := by
          simp [DB.updateOf, DB.updateEscrow, hpaid]
        simp only [Bool.false_eq_true, if_false, hnew]
        exact ⟨.fundLast r _ u hstate hmet fun hpaid' => absurd (hpaid'.symm.trans hpaid) (by simp),
          fun _ => ⟨.inl hstate, by simp⟩⟩
    | false =>
      simp only [hmet, Bool.false_eq_true, if_false] at h
      cases h
      cases hpaid : r.escrow.funded with
      | true =>
        simp only [if_true, hkeep]
        exact ⟨.keep r, fun hk => absurd rfl hk⟩
      | false =>
        have hnew : DB.updateOf r { setFunded := true, fundedTxHash := txHash } u =
            { r with escrow := { r.escrow with funded := true, fundedTxHash := txHash, updatedAt := u } } := by
          simp [DB.updateOf, DB.updateEscrow, hpaid]
        simp only [Bool.false_eq_true, if_false, hnew]
        exact ⟨.fund r txHash u hstate hpaid hmet, fun hk => absurd rfl hk⟩
end Decisions

def Choice.time : Choice → Int
  | .ok clock _ | .lost _ clock _ _ => clock
  | .failed _ _ _ | .text _ => 0

def Op.time : Op → Choice → Int
  | .releaseDueTimeLocks t, _ | .refundTimedOut t, _ => t
  | _, c => c.time

structure Escrow.Fresh (e : Escrow) : Prop where
  waits : e.state = .waiting
  unpaid : e.funded = false
  approvers : e.conditionParams.approvers.Nodup ∧ "" ∉ e.conditionParams.approvers
  deadline : ∀ t, e.releaseAt = some t → t < e.timeoutAt

inductive RowStep (t : Int) : Option Row → Option Row → Prop
  | absent : RowStep t none none
  | born (e : Escrow) (fresh : e.Fresh) : RowStep t none (some { escrow := e })
  | change {r r' : Row} (h : Change t r r') : RowStep t (some r) (some r')

theorem RowStep.refl (t : Int) (o : Option Row) : RowStep t o o := by
  cases o with
  | none => exact .absent
  | some r => exact .change (.keep r)

theorem rowStep_put {t : Int} {db : DB} {r r' : Row} (found : db.rows[r.escrow.id]? = some r)
    (hid : r'.escrow.id = r.escrow.id) (h : Change t r r') (id : String) : RowStep t db.rows[id]? (db.put r').rows[id]? := by
  rw [DB.rows_put, hid]
  split
  · next hkey =>
    rw [← hkey, found]
    exact .change h
  · exact .refl t _

section Perform

variable {s s' : World} {c : Choice}

theorem transact_cases {α : Type} {run : (clock dbTime : Int) → Except Error (α × DB)}
    {a : Except Error α} (h : transact s run c = some (a, s')) : (s' = s ∧ ∃ err, a = .error err) ∨
    ∃ dbTime x db, run c.time dbTime = .ok (x, db) ∧ s' = { s with db := db } ∧
      (a = .ok x ∨ ∃ err, a = .error err) := by
  cases c with
  | ok clock dbTime =>
    simp only [transact] at h
    split at h
    · cases h
      exact .inl ⟨rfl, _, rfl⟩
    · next x db hrun =>
      cases h
      exact .inr ⟨dbTime, x, db, hrun, rfl, .inl rfl⟩
  | failed seen dbTime m =>
    cases h
    exact .inl ⟨rfl, _, rfl⟩
  | lost seen clock dbTime m =>
    simp only [transact] at h
    split at h
    · cases h
    · next x db hrun =>
      cases h
      exact .inr ⟨dbTime, x, db, hrun, rfl, .inr ⟨_, rfl⟩⟩
  | text s => cases h

theorem sweepStatement_cases {run : (dbTime : Int) → List Escrow × DB} {a : Swept}
    (h : sweepStatement s run c = some (a, s')) :
    (s' = s ∧ ∃ seen dbTime m, c = .failed seen dbTime m ∧ a = ((run dbTime).1.filter fun e => seen e.id, some m)) ∨
    ∃ dbTime, c.committed = true ∧ s' = { s with db := (run dbTime).2 } ∧ a.1.Sublist (run dbTime).1 := by
  cases c with
  | ok clock dbTime =>
    cases h
    exact .inr ⟨dbTime, rfl, rfl, List.Sublist.refl _⟩
  | failed seen dbTime m =>
    cases h
    exact .inl ⟨rfl, seen, dbTime, m, rfl, rfl⟩
  | lost seen clock dbTime m =>
    cases h
    exact .inr ⟨dbTime, rfl, rfl, List.filter_sublist⟩
  | text s => cases h

theorem servePublish_db {name : EventName} {e : Escrow} {a : Except String Unit}
    (h : servePublish s name e c = some (a, s')) : s'.db = s.db := by
  cases c <;> cases h <;> rfl

theorem mutate_cases {κ : Type} {db db' : DB} {id : String} {fn : DB.MutateFn κ} {dbTime : Int}
    {x : Escrow × κ} (h : db.mutate id fn dbTime = .ok (x, db')) :
    ∃ r up, db.rows[id]? = some r ∧ fn r.escrow r.approvals = .ok (up, x.2) ∧
      x.1 = (DB.updateOf r up dbTime).escrow ∧ db' = db.put (DB.updateOf r up dbTime) := by
  simp only [DB.mutate] at h
  split at h
  · cases h
  · next r hr =>
    split at h
    · cases h
    · next up left hfn =>
      cases h
      exact ⟨r, up, hr, hfn, rfl, rfl⟩

theorem applyFunding_cases {κ : Type} {db db' : DB} {plID txHash : String} {fn : DB.MutateFn κ}
    {dbTime : Int} {x : Escrow × Option κ} (h : db.applyFunding plID txHash fn dbTime = .ok (x, db')) :
    (x.2 = none ∧ db' = db) ∨
    ∃ r up left, db.byPayLink plID = some r ∧ fn r.escrow r.approvals = .ok (up, left) ∧
      x = ((DB.updateOf r up dbTime).escrow, some left) ∧
      db'.rows = (db.put (DB.updateOf r up dbTime)).rows := by
  simp only [DB.applyFunding] at h
  split at h
  · cases h
  · next r hr =>
    split at h
    · cases h
      exact .inl ⟨rfl, rfl⟩
    · split at h
      · cases h
      · next up left hfn =>
        cases h
        exact .inr ⟨r, up, left, hr, hfn, rfl, rfl⟩

theorem change_decision {d : Decision} {t : Int} {r : Row} {up : Update} {left : Left} (u : Int)
    (h : d.fn t r.escrow r.approvals = .ok (up, left)) : Change t r (DB.updateOf r up u) := by
  cases d with
  | confirm caller => exact (change_confirm u h).1
  | dispute caller reason => exact (change_dispute u h).1

theorem change_moveRow {t u : Int} (r : Row) : Change t r (DB.moveRow (DB.releaseDue t) .released u r) ∧
      Change t r (DB.moveRow (DB.timedOut t) .refunded u r) := by
  simp only [DB.moveRow]
  constructor
  · split
    · next hdue => exact .releaseDue r u hdue
    · exact .keep r
  · split
    · next hout => exact .refund r u hout
    · exact .keep r

theorem rowStep_moveAll {t u : Int} {db : DB} {pick : Escrow → Bool} {target : State}
    (h : ∀ r, Change t r (DB.moveRow pick target u r)) (id : String) :
    RowStep t db.rows[id]? (db.moveAll pick target u).2.rows[id]? := by
  simp only [DB.moveAll, DB.rows_mapRows]
  cases db.rows[id]? with
  | none => exact .absent
  | some r => exact .change (h r)

def Op.Proper : Op → Prop
  | .createEscrow e => e.Fresh
  | _ => True

def Op.isSweep : Op → Bool
  | .releaseDueTimeLocks _ | .refundTimedOut _ => true
  | _ => false

def Op.Unswept (i : Op) : Prop := i.Proper ∧ i.isSweep = false

theorem perform_rows {i : Op} {a : i.Answer} (proper : i.Proper) (h : perform s i c = some (a, s'))
    (id : String) : RowStep (i.time c) s.db.rows[id]? s'.db.rows[id]? := by
  cases i with
  | now =>
    cases c <;> cases h
    exact .refl _ _
  | newID =>
    cases c <;> cases h
    exact .refl _ _
  | createEscrow e =>
    rcases transact_cases h with ⟨rfl, -⟩ | ⟨dbTime, x, db, hrun, rfl, -⟩
    · exact .refl _ _
    · simp only [DB.createEscrow] at hrun
      split at hrun
      · cases hrun
      · next hnew =>
        cases hrun
        rw [not_or] at hnew
        rw [DB.rows_put]
        split
        · next hkey =>
          have hnone : s.db.rows[id]? = none := by
            rw [← hkey, Std.ExtTreeMap.getElem?_eq_none]
            simpa using hnew.1
          rw [hnone]
          exact .born e proper
        · exact .refl _ _
  | mutate key d =>
    rcases transact_cases h with ⟨rfl, -⟩ | ⟨dbTime, x, db, hrun, rfl, -⟩
    · exact .refl _ _
    · obtain ⟨r, up, hr, hfn, -, rfl⟩ := mutate_cases hrun
      have hkey := s.db.keyed key r hr
      rw [← hkey] at hr
      exact rowStep_put hr (DB.id_updateOf r up dbTime) (change_decision dbTime hfn) id
  | applyFunding plID txHash =>
    rcases transact_cases h with ⟨rfl, -⟩ | ⟨dbTime, x, db, hrun, rfl, -⟩
    · exact .refl _ _
    · rcases applyFunding_cases hrun with ⟨-, rfl⟩ | ⟨r, up, left, hr, hfn, -, hrows⟩
      · exact .refl _ _
      · have hfound := (DB.of_byPayLink hr).1
        have hput := rowStep_put hfound (DB.id_updateOf r up dbTime) (change_funding dbTime hfn).1 id
        rw [← hrows] at hput
        exact hput
  | releaseDueTimeLocks now =>
    rcases sweepStatement_cases h with ⟨rfl, -⟩ | ⟨dbTime, -, rfl, -⟩
    · exact .refl _ _
    · exact rowStep_moveAll (fun r => (change_moveRow r).1) id
  | refundTimedOut now =>
    rcases sweepStatement_cases h with ⟨rfl, -⟩ | ⟨dbTime, -, rfl, -⟩
    · exact .refl _ _
    · exact rowStep_moveAll (fun r => (change_moveRow r).2) id
  | publish name e =>
    rw [servePublish_db h]
    exact .refl _ _
end Perform

namespace Service
theorem checkApprovers_ok {strs : StringLib} {seen as bs : List String} (h : checkApprovers strs seen as = .ok bs) :
    bs.Nodup ∧ "" ∉ bs ∧ ∀ b ∈ bs, b ∉ seen := by
  induction as generalizing seen bs with
  | nil =>
    cases h
    simp
  | cons a as ih =>
    simp only [checkApprovers] at h
    split at h
    · cases h
    · next hne =>
      split at h
      · cases h
      · next hnew =>
        cases hrest : checkApprovers strs (normalizeAddr strs a :: seen) as with
        | error e =>
          rw [hrest] at h
          cases h
        | ok rest =>
          rw [hrest] at h
          cases h
          obtain ⟨hnodup, hempty, hseen⟩ := ih hrest
          refine ⟨List.nodup_cons.mpr ⟨fun hmem => ?_, hnodup⟩, ?_, ?_⟩
          · exact hseen _ hmem List.mem_cons_self
          · rw [List.mem_cons, not_or]
            exact ⟨Ne.symm hne, hempty⟩
          · intro b hb
            rcases List.mem_cons.mp hb with rfl | hb
            · exact hnew
            · exact fun hmem => hseen b hb (List.mem_cons_of_mem _ hmem)

theorem validateCondition_ok {D : Deployment} {type : ConditionType} {p params : ConditionParams}
    {now timeoutAt : Int} {releaseAt : Option Int}
    (h : validateCondition D type p now timeoutAt = .ok (params, releaseAt)) :
    (params.approvers.Nodup ∧ "" ∉ params.approvers) ∧ ∀ t, releaseAt = some t → t < timeoutAt := by
  cases type with
  | deliveryConfirmation =>
    simp only [validateCondition] at h
    split at h
    · cases h
    · cases h
      simp
  | timeLock =>
    simp only [validateCondition] at h
    split at h
    · cases h
    · split at h
      · cases h
      · split at h
        · cases h
        · split at h
          · cases h
          · next hbefore =>
            cases h
            simpa using hbefore
  | multiPartyApproval =>
    simp only [validateCondition] at h
    split at h
    · cases h
    · split at h
      · cases h
      · split at h
        · cases h
        · next approvers happrovers =>
          split at h
          · cases h
          · cases h
            obtain ⟨hnodup, hempty, -⟩ := checkApprovers_ok happrovers
            simp [hnodup, hempty]

theorem newEscrow_fresh {D : Deployment} {input : CreateInput} {f : Fields} {now : Int}
    {mk : String → Escrow} (h : newEscrow D input f now = .ok mk) (id : String) : (mk id).Fresh := by
  simp only [newEscrow, bind_eq_ok] at h
  obtain ⟨timeoutAt, -, ⟨params, releaseAt⟩, hcond, hmk⟩ := h
  cases hmk
  obtain ⟨happrovers, hdeadline⟩ := validateCondition_ok hcond
  exact ⟨rfl, rfl, happrovers, hdeadline⟩

theorem publish_only {P : Op → Prop} {name : EventName} {e : Escrow} (h : P (.publish name e)) : (publish name e).Only P :=
  .bind (.op h) fun _ => .ret _

theorem publishAll_only {P : Op → Prop} {name : EventName} (h : ∀ e, P (.publish name e))
    (es : List Escrow) : (publishAll name es).Only P := by
  induction es with
  | nil => exact .ret _
  | cons e es ih => exact .bind (publish_only (h e)) fun _ => ih

theorem create_only (D : Deployment) (input : CreateInput) : (create D input).Only Op.Unswept := by
  unfold create
  split
  · exact .ret _
  · refine .bind (.op ⟨trivial, rfl⟩) fun now => ?_
    split
    · exact .ret _
    · next mk hmk =>
      refine .bind (.op ⟨trivial, rfl⟩) fun id => .bind (.op ⟨newEscrow_fresh hmk id, rfl⟩) fun a => ?_
      split
      · exact .ret _
      · exact .ret _
      · exact .bind (publish_only ⟨trivial, rfl⟩) fun _ => .ret _

theorem confirm_only (D : Deployment) (id caller : String) : (confirm D id caller).Only Op.Unswept := by
  refine .bind (.op ⟨trivial, rfl⟩) fun a => ?_
  split
  · exact .ret _
  · split
    · exact .bind (publish_only ⟨trivial, rfl⟩) fun _ => .ret _
    · exact .bind (.ret _) fun _ => .ret _

theorem dispute_only (D : Deployment) (id caller reason : String) : (dispute D id caller reason).Only Op.Unswept := by
  simp only [dispute]
  split
  · exact .ret _
  · refine .bind (.op ⟨trivial, rfl⟩) fun a => ?_
    split
    · exact .ret _
    · split
      · exact .bind (publish_only ⟨trivial, rfl⟩) fun _ => .ret _
      · exact .bind (.ret _) fun _ => .ret _

theorem handlePaylinkVerified_only (D : Deployment) (plID txHash : String) :
    (handlePaylinkVerified D plID txHash).Only Op.Unswept := by
  refine .bind (.op ⟨trivial, rfl⟩) fun a => ?_
  split
  · exact .ret _
  · exact .ret _
  · exact .ret _
  · split
    · exact .bind (publish_only ⟨trivial, rfl⟩) fun _ => .ret _
    · split
      · exact .ret _
      · exact .ret _

theorem sweep_only : sweep.Only Op.Proper :=
  .bind (.op trivial) fun _ => .bind (.op trivial) fun _ => .bind (publishAll_only (fun _ => trivial) _)
    fun _ => .bind (.op trivial) fun _ => publishAll_only (fun _ => trivial) _
end Service

theorem handle_unswept (D : Deployment) {q : Request} (hq : q ≠ .sweep) : (handle D q).Only Op.Unswept := by
  cases q with
  | create input => exact .bind (Service.create_only D input) fun _ => .ret _
  | confirm id caller => exact .bind (Service.confirm_only D id caller) fun _ => .ret _
  | dispute id caller reason => exact .bind (Service.dispute_only D id caller reason) fun _ => .ret _
  | paylinkVerified plID txHash =>
    exact .bind (Service.handlePaylinkVerified_only D plID txHash) fun _ => .ret _
  | sweep => exact absurd rfl hq

theorem handle_only (D : Deployment) (q : Request) : (handle D q).Only Op.Proper := by
  by_cases hq : q = .sweep
  · rw [hq]
    exact .bind Service.sweep_only fun _ => .ret _
  · exact (handle_unswept D hq).mono fun _ h => h.1

structure Legit (r : Row) : Prop where
  persisted : r.escrow.state ≠ .conditionsMet
  approvers : r.escrow.conditionParams.approvers.Nodup ∧ "" ∉ r.escrow.conditionParams.approvers
  deadline : ∀ t, r.escrow.releaseAt = some t → t < r.escrow.timeoutAt
  confirmers : ∀ a ∈ r.approvals, Service.mayConfirm r.escrow a = .ok ()
  pending : r.escrow.state = .waiting → r.escrow.funded = true → r.escrow.conditionType ≠ .timeLock →
    ∀ t, r.escrow.conditionSatisfied r.approvals t = false

theorem Escrow.conditionSatisfied_time {e : Escrow} (h : e.conditionType ≠ .timeLock)
    (approvals : List String) (t t' : Int) : e.conditionSatisfied approvals t = e.conditionSatisfied approvals t' := by
  unfold conditionSatisfied
  split
  · rfl
  · next hlock => exact absurd hlock h
  · rfl

theorem mem_appendApproval {approvals : List String} {a caller : String} :
    a ∈ appendApproval approvals caller ↔ a ∈ approvals ∨ a = caller := by
  unfold appendApproval
  split
  · next hmem =>
    rw [List.contains_iff_mem] at hmem
    constructor
    · exact .inl
    · rintro (h | rfl)
      · exact h
      · exact hmem
  · simp

theorem mem_recorded {approvals : List String} {a caller : String} (h : a ∈ recorded approvals caller) :
    a ∈ approvals ∨ a = caller := by
  unfold recorded at h
  split at h
  · exact mem_appendApproval.mp h
  · exact .inl h

theorem Legit.born {e : Escrow} (h : e.Fresh) : Legit { escrow := e } where
  persisted := by simp [h.waits]
  approvers := h.approvers
  deadline := h.deadline
  confirmers := by simp
  pending := by simp [h.unpaid]

namespace Change
variable {t : Int} {r r' : Row}

theorem legit (h : Change t r r') (hr : Legit r) : Legit r' := by
  obtain ⟨hpersisted, happrovers, hdeadline, hconfirmers, hpending⟩ := hr
  -- a new approval is one that was allowed
  have hnew : ∀ caller, Service.mayConfirm r.escrow caller = .ok () →
      ∀ a ∈ recorded r.approvals caller, Service.mayConfirm r.escrow a = .ok () := by
    intro caller hmay a ha
    rcases mem_recorded ha with ha | rfl
    · exact hconfirmers a ha
    · exact hmay
  cases h with
  | keep => exact ⟨hpersisted, happrovers, hdeadline, hconfirmers, hpending⟩
  | confirm caller waits may pending =>
    refine ⟨hpersisted, happrovers, hdeadline, hnew caller may, fun _ hpaid htype t' => ?_⟩
    dsimp only [recorded]
    split
    · rw [Escrow.conditionSatisfied_time htype _ t' t]
      simpa using fun hmet => pending ⟨hpaid, hmet⟩
    · exact hpending waits hpaid htype t'
  | confirmLast caller u waits may paid met =>
    exact ⟨by simp, happrovers, hdeadline, hnew caller may, fun h => by cases h⟩
  | dispute reason u active => exact ⟨by simp, happrovers, hdeadline, hconfirmers, fun h => by cases h⟩
  | fund txHash u waits unpaid unmet =>
    refine ⟨hpersisted, happrovers, hdeadline, hconfirmers, fun _ _ htype t' => ?_⟩
    exact (Escrow.conditionSatisfied_time htype _ t' t).trans unmet
  | fundLast txHash u waits met kept =>
    exact ⟨by simp, happrovers, hdeadline, hconfirmers, fun h => by cases h⟩
  | releaseDue u due => exact ⟨by simp, happrovers, hdeadline, hconfirmers, fun h => by cases h⟩
  | refund u out => exact ⟨by simp, happrovers, hdeadline, hconfirmers, fun h => by cases h⟩
end Change

def DB.AllLegit (db : DB) : Prop := ∀ (id : String) (r : Row), db.rows[id]? = some r → Legit r

theorem DB.allLegit_empty : DB.empty.AllLegit := by
  intro id r h
  simp [DB.empty] at h

theorem perform_legit {s s' : World} {i : Op} {c : Choice} {a : i.Answer} (proper : i.Proper)
    (h : perform s i c = some (a, s')) (hs : s.db.AllLegit) : s'.db.AllLegit := by
  intro id r' hr'
  have hstep := perform_rows proper h id
  rw [hr'] at hstep
  generalize hr : s.db.rows[id]? = o at hstep
  cases hstep with
  | born e fresh => exact Legit.born fresh
  | change hchange => exact hchange.legit (hs id _ hr)

variable {D : Deployment}

theorem proper_run (moves : List (Move Request Choice Empty)) (s₀ : World) :
    ∀ e ∈ trace (system D).step { shared := s₀ } moves, Allowed (fun _ _ _ i _ => i.Proper) e.1 e.2 :=
  (system D).allowed_of_only (handle_only D) (fun n r p hn => by simp at hn) moves

theorem allLegit_run (moves : List (Move Request Choice Empty)) : ((system D).exec {} moves).shared.db.AllLegit := by
  have hserved : ∀ n q s i c a s', s.db.AllLegit → (fun _ _ _ i _ => Op.Proper i) n q s i c →
      (system D).serve n q s i c = some (a, s') → s'.db.AllLegit :=
    fun n q s i c a s' hs hproper h => perform_legit hproper h hs
  exact (system D).world_invariant (I := fun s => s.db.AllLegit) hserved (fun _ w => nomatch w)
    DB.allLegit_empty moves (proper_run moves {})

end LinkMint.Escrows
