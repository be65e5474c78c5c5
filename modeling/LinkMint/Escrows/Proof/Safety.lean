import LinkMint.Lib.Budget
import LinkMint.Escrows.Proof.Rows

/-!
# Escrow safety

Over any interleaving, an escrow leaves `WAITING` once, and is released only when it is paid and
its condition holds. That it is announced at most once needs every move to be clean
(`CleanMove`).
-/

namespace LinkMint.Escrows

open LinkMint.Lib

def ConditionHolds (r : Row) (t : Int) : Prop :=
  match r.escrow.conditionType with
  | .deliveryConfirmation => r.escrow.creatorAddr ∈ r.approvals
  | .timeLock => ∃ due, r.escrow.releaseAt = some due ∧ due ≤ t
  | .multiPartyApproval =>
    ∃ confirmed : List String, confirmed.Nodup ∧
      (∀ a ∈ confirmed, a ∈ r.escrow.conditionParams.approvers ∧ a ∈ r.approvals) ∧
      r.escrow.conditionParams.threshold ≤ confirmed.length

theorem conditionHolds_of_satisfied {r : Row} {t : Int} (nodup : r.escrow.conditionParams.approvers.Nodup)
    (h : r.escrow.conditionSatisfied r.approvals t = true) : ConditionHolds r t := by
  unfold ConditionHolds
  unfold Escrow.conditionSatisfied at h
  cases htype : r.escrow.conditionType with
  | deliveryConfirmation =>
    rw [htype] at h
    exact List.contains_iff_mem.mp h
  | timeLock =>
    rw [htype] at h
    simpa [Option.any_eq_true] using h
  | multiPartyApproval =>
    rw [htype] at h
    refine ⟨r.escrow.conditionParams.approvers.filter r.approvals.contains, nodup.filter _, ?_, ?_⟩
    · intro a ha
      rw [List.mem_filter, List.contains_iff_mem] at ha
      exact ha
    · simpa using h

theorem of_releaseDue {t : Int} {e : Escrow} (h : DB.releaseDue t e = true) :
    e.state = .waiting ∧ e.funded = true ∧ e.conditionType = .timeLock ∧ ∃ due, e.releaseAt = some due ∧ due ≤ t := by
  simp only [DB.releaseDue, Bool.and_eq_true, beq_iff_eq, Option.any_eq_true, decide_eq_true_eq] at h
  obtain ⟨⟨⟨hstate, hpaid⟩, htype⟩, hdue⟩ := h
  exact ⟨hstate, hpaid, htype, hdue⟩

theorem of_timedOut {t : Int} {e : Escrow} (h : DB.timedOut t e = true) : e.state = .waiting ∧ e.timeoutAt ≤ t := by
  simpa [DB.timedOut] using h

theorem Legit.caller_ne_empty {r : Row} {caller : String} (hr : Legit r)
    (creator : r.escrow.creatorAddr ≠ "") (may : Service.mayConfirm r.escrow caller = .ok ()) : caller ≠ "" := by
  rintro rfl
  unfold Service.mayConfirm at may
  split at may
  · cases may
  · rw [if_pos (Ne.symm creator)] at may
    cases may
  · split at may
    · next hmem => exact hr.approvers.2 (List.contains_iff_mem.mp hmem)
    · cases may

namespace Change
variable {t : Int} {r r' : Row}

theorem state_kept (h : Change t r r') (hr : Legit r) (hne : r.escrow.state ≠ .waiting) :
    r'.escrow.state = r.escrow.state := by
  cases h with
  | keep => rfl
  | confirm => rfl
  | confirmLast _ _ waits => exact absurd waits hne
  | dispute _ _ active =>
    rcases active with waits | hmid
    · exact absurd waits hne
    · exact absurd hmid hr.persisted
  | fund => rfl
  | fundLast _ _ waits => exact absurd waits hne
  | releaseDue _ due => exact absurd (of_releaseDue due).1 hne
  | refund _ out => exact absurd (of_timedOut out).1 hne

theorem funded_kept (h : Change t r r') (hpaid : r.escrow.funded = true) :
    r'.escrow.funded = true ∧ r'.escrow.fundedTxHash = r.escrow.fundedTxHash := by
  cases h with
  | keep => exact ⟨hpaid, rfl⟩
  | confirm => exact ⟨hpaid, rfl⟩
  | confirmLast => exact ⟨hpaid, rfl⟩
  | dispute => exact ⟨hpaid, rfl⟩
  | fund _ _ _ unpaid => exact absurd (hpaid.symm.trans unpaid) (by simp)
  | fundLast _ _ _ _ kept => exact ⟨rfl, kept hpaid⟩
  | releaseDue => exact ⟨hpaid, rfl⟩
  | refund => exact ⟨hpaid, rfl⟩

theorem of_released (h : Change t r r') (hr : Legit r) (creator : r.escrow.creatorAddr ≠ "")
    (hne : r.escrow.state ≠ .released) (hreleased : r'.escrow.state = .released) :
    r'.escrow.funded = true ∧ ConditionHolds r' t := by
  cases h with
  | keep => exact absurd hreleased hne
  | confirm => exact absurd hreleased hne
  | confirmLast caller u waits may paid met =>
    have hcaller := hr.caller_ne_empty creator may
    refine ⟨paid, conditionHolds_of_satisfied hr.approvers.1 ?_⟩
    dsimp only [recorded]
    rw [if_pos hcaller]
    exact met
  | dispute => cases hreleased
  | fund => exact absurd hreleased hne
  | fundLast txHash u waits met kept => exact ⟨rfl, conditionHolds_of_satisfied hr.approvers.1 met⟩
  | releaseDue u due =>
    obtain ⟨-, hpaid, htype, hdue⟩ := of_releaseDue due
    refine ⟨hpaid, ?_⟩
    unfold ConditionHolds
    dsimp only
    rw [htype]
    exact hdue
  | refund => cases hreleased
end Change

def announces (id : String) (p : EventName × Escrow) : Bool := p.1 != .created && p.2.id == id

def NoRowsOnFailure (s : World) : Op → Choice → Prop
  | .releaseDueTimeLocks t, .failed seen dbTime _ =>
    (s.db.releaseDueTimeLocks t dbTime).1.filter (fun e => seen e.id) = []
  | .refundTimedOut t, .failed seen dbTime _ =>
    (s.db.refundTimedOut t dbTime).1.filter (fun e => seen e.id) = []
  | _, _ => True

instance (s : World) (i : Op) (c : Choice) : Decidable (NoRowsOnFailure s i c) := by
  unfold NoRowsOnFailure
  split <;> infer_instance

def announcements (id : String) : Budget Op Request World Choice where
  inv s := s.db.AllLegit
  guard _ _ s i c := i.Proper ∧ NoRowsOnFailure s i c
  spent s := (s.published.filter (announces id)).length
  earned s := if (s.db.rows[id]?).any (fun r => r.escrow.state != .waiting) then 1 else 0

section
variable {id : String} {s s' : World}

theorem earned_eq_one {r : Row} (h : s.db.rows[id]? = some r) (hne : r.escrow.state ≠ .waiting) :
    (announcements id).earned s = 1 := by
  simp [announcements, h, hne]

theorem earned_eq_zero {r : Row} (h : s.db.rows[id]? = some r) (hwaits : r.escrow.state = .waiting) :
    (announcements id).earned s = 0 := by
  simp [announcements, h, hwaits]

theorem earned_mono {t : Int} (hs : s.db.AllLegit) (h : RowStep t s.db.rows[id]? s'.db.rows[id]?) :
    (announcements id).earned s ≤ (announcements id).earned s' := by
  generalize hr : s.db.rows[id]? = o at h
  generalize hr' : s'.db.rows[id]? = o' at h
  cases h with
  | absent => simp [announcements, hr]
  | born => simp [announcements, hr]
  | @change r r' hchange =>
    by_cases hwaits : r.escrow.state = .waiting
    · rw [earned_eq_zero hr hwaits]
      exact Nat.zero_le _
    · have hkept := hchange.state_kept (hs id r hr) hwaits
      rw [earned_eq_one hr hwaits, earned_eq_one hr' (by rw [hkept]; exact hwaits)]

theorem earned_of_leaves {r r' : Row} (hs : s.db.AllLegit) (hr : s.db.rows[id]? = some r)
    (hr' : s'.db.rows[id]? = some r') (h : Leaves r r') : 1 + (announcements id).earned s ≤ (announcements id).earned s' := by
  have hwaits : r.escrow.state = .waiting := by
    rcases h.1 with hwaits | hmid
    · exact hwaits
    · exact absurd hmid (hs id r hr).persisted
  rw [earned_eq_zero hr hwaits, earned_eq_one hr' h.2]
end

def cost (id : String) (name : EventName) (e : Escrow) : Nat := if announces id (name, e) then 1 else 0

def Op.isPublish : Op → Bool
  | .publish _ _ => true
  | _ => false

section Programs

variable {id : String} {n : Nat} {q : Request} {s s' : World}

variable {name : EventName}

theorem perform_publish {e : Escrow} {c : Choice} {a : (Op.publish name e).Answer}
    (h : perform s (.publish name e) c = some (a, s')) :
    s'.db = s.db ∧ (s'.published = s.published ∨ s'.published = s.published ++ [(name, e)]) := by
  cases c with
  | ok clock dbTime =>
    cases h
    exact ⟨rfl, .inr rfl⟩
  | failed seen dbTime m =>
    cases h
    exact ⟨rfl, .inl rfl⟩
  | lost seen clock dbTime m =>
    cases h
    exact ⟨rfl, .inr rfl⟩
  | text s => cases h

theorem published_kept {i : Op} {c : Choice} {a : i.Answer} (hi : i.isPublish = false)
    (h : perform s i c = some (a, s')) : s'.published = s.published := by
  cases i with
  | now | newID =>
    cases c <;> cases h
    rfl
  | createEscrow e =>
    rcases transact_cases h with ⟨rfl, -⟩ | ⟨_, _, _, -, rfl, -⟩ <;> rfl
  | mutate key d => rcases transact_cases h with ⟨rfl, -⟩ | ⟨_, _, _, -, rfl, -⟩ <;> rfl
  | applyFunding plID txHash =>
    rcases transact_cases h with ⟨rfl, -⟩ | ⟨_, _, _, -, rfl, -⟩ <;> rfl
  | releaseDueTimeLocks t =>
    rcases sweepStatement_cases h with ⟨rfl, -⟩ | ⟨_, -, rfl, -⟩ <;> rfl
  | refundTimedOut t =>
    rcases sweepStatement_cases h with ⟨rfl, -⟩ | ⟨_, -, rfl, -⟩ <;> rfl
  | publish name e => cases hi

theorem affords_publish {e : Escrow} {b : Nat} (h : cost id name e ≤ b) :
    Affords serve (announcements id) n q (Service.publish name e) (fun _ b' => b' + cost id name e = b) b := by
  have hcall : Affords serve (announcements id) n q (Call.publish name e)
      (fun _ b' => b' + cost id name e = b) b := by
    refine .op fun s c _ _ a s' hserve => ⟨b - cost id name e, ?_, by omega⟩
    obtain ⟨hdb, hpublished⟩ := perform_publish hserve
    have hearned : (announcements id).earned s' = (announcements id).earned s := by
      simp only [announcements, hdb]
    have hspent : (announcements id).spent s' ≤ (announcements id).spent s + cost id name e := by
      simp only [announcements]
      rcases hpublished with h | h
      · rw [h]
        exact Nat.le_add_right _ _
      · rw [h, List.filter_append, List.length_append]
        unfold cost
        split <;> simp [*]
    omega
  exact hcall.bind fun _ _ hb => .ret hb

theorem affords_publishAll {es : List Escrow} {b : Nat} (h : (es.map (cost id name)).sum ≤ b) :
    Affords serve (announcements id) n q (Service.publishAll name es) (fun _ _ => True) b := by
  induction es generalizing b with
  | nil => exact .ret trivial
  | cons e es ih =>
    rw [List.map_cons, List.sum_cons] at h
    exact (affords_publish (by omega)).bind fun _ b' hb => ih (by omega)

theorem affords_call {i : Op} {post : i.Answer → Nat → Prop} {b : Nat} (hi : i.isPublish = false)
    (h : ∀ s c, s.db.AllLegit → i.Proper → NoRowsOnFailure s i c → ∀ a s', perform s i c = some (a, s') →
      (announcements id).earned s ≤ (announcements id).earned s' →
      ∃ b', b' + (announcements id).earned s ≤ b + (announcements id).earned s' ∧ post a b') :
    Affords serve (announcements id) n q (Prog.op i) post b := by
  refine .op fun s c hinv hguard a s' hserve => ?_
  have hmono := earned_mono hinv (perform_rows hguard.1 hserve id)
  have hspent : (announcements id).spent s' = (announcements id).spent s := by
    simp only [announcements, published_kept hi hserve]
  rw [hspent]
  obtain ⟨b', hb, hpost⟩ := h s c hinv hguard.1 hguard.2 a s' hserve hmono
  exact ⟨b', by omega, hpost⟩

theorem affords_idle {i : Op} (hi : i.isPublish = false) :
    Affords serve (announcements id) n q (Prog.op i) (fun _ b => b = 0) 0 :=
  affords_call hi fun _ _ _ _ _ _ _ _ hmono => ⟨0, by omega, rfl⟩

theorem affords_mutate {key : String} {d : Decision} {announced : Left → Prop}
    (hannounced : ∀ t u r up left, d.fn t r.escrow r.approvals = .ok (up, left) → announced left →
      Leaves r (DB.updateOf r up u)) :
    Affords serve (announcements id) n q (Call.mutate key d)
      (fun a b => ∀ e left, a = .ok (e, left) → announced left → cost id name e ≤ b) 0 := by
  refine affords_call rfl fun s c hs _ _ a s' hperform hmono => ?_
  -- an answer that announces nothing costs nothing
  have hnothing : (∀ e left, a = .ok (e, left) → announced left → cost id name e = 0) →
      ∃ b', b' + (announcements id).earned s ≤ 0 + (announcements id).earned s' ∧
        ∀ e left, a = .ok (e, left) → announced left → cost id name e ≤ b' :=
    fun h => ⟨0, by omega, fun e left ha hleft => (h e left ha hleft).le⟩
  rcases transact_cases hperform with ⟨-, err, rfl⟩ | ⟨dbTime, x, db, hrun, rfl, rfl | ⟨err, rfl⟩⟩
  · exact hnothing fun e left ha => by cases ha
  · obtain ⟨e, left⟩ := x
    obtain ⟨r, up, hr, hfn, rfl, rfl⟩ := mutate_cases hrun
    by_cases hgo : announced left ∧ r.escrow.id = id
    · obtain ⟨hleft, hid⟩ := hgo
      have hleaves := hannounced c.time dbTime r up left hfn hleft
      have hkey := s.db.keyed key r hr
      have hfound : s.db.rows[id]? = some r := by
        rw [← hid, hkey]
        exact hr
      have hfound' : (s.db.put (DB.updateOf r up dbTime)).rows[id]? = some (DB.updateOf r up dbTime) := by
        simp [hid]
      have hearned : 1 + (announcements id).earned s ≤
          (announcements id).earned { s with db := s.db.put (DB.updateOf r up dbTime) } :=
        earned_of_leaves hs hfound hfound' hleaves
      refine ⟨1, by omega, fun e left _ _ => ?_⟩
      unfold cost
      split <;> omega
    · refine hnothing fun e' left' ha hleft => ?_
      cases ha
      have hother : r.escrow.id ≠ id := fun hid => hgo ⟨hleft, hid⟩
      simp [cost, announces, hother]
  · exact hnothing fun e left ha => by cases ha

theorem affords_applyFunding {plID txHash : String} :
    Affords serve (announcements id) n q (Call.applyFunding plID txHash)
      (fun a b => ∀ e left, a = .ok (e, some left) → left.kinds ≠ [] → cost id .released e ≤ b) 0 := by
  refine affords_call rfl fun s c hs _ _ a s' hperform hmono => ?_
  have hnothing : (∀ e left, a = .ok (e, some left) → left.kinds ≠ [] → cost id .released e = 0) →
      ∃ b', b' + (announcements id).earned s ≤ 0 + (announcements id).earned s' ∧
        ∀ e left, a = .ok (e, some left) → left.kinds ≠ [] → cost id .released e ≤ b' :=
    fun h => ⟨0, by omega, fun e left ha hleft => (h e left ha hleft).le⟩
  rcases transact_cases hperform with ⟨-, err, rfl⟩ | ⟨dbTime, x, db, hrun, rfl, rfl | ⟨err, rfl⟩⟩
  · exact hnothing fun e left ha => by cases ha
  · rcases applyFunding_cases hrun with ⟨hnone, -⟩ | ⟨r, up, left, hr, hfn, rfl, hrows⟩
    · refine hnothing fun e left ha => ?_
      cases ha
      cases hnone
    · obtain ⟨hfound, -⟩ := DB.of_byPayLink hr
      by_cases hgo : left.kinds ≠ [] ∧ r.escrow.id = id
      · obtain ⟨hleft, rfl⟩ := hgo
        have hleaves := (change_funding dbTime hfn).2 hleft
        have hfound' : db.rows[r.escrow.id]? = some (DB.updateOf r up dbTime) := by
          rw [hrows]
          simp
        have hearned : 1 + (announcements r.escrow.id).earned s ≤
            (announcements r.escrow.id).earned { s with db := db } :=
          earned_of_leaves hs hfound hfound' hleaves
        refine ⟨1, by omega, fun e left _ _ => ?_⟩
        unfold cost
        split <;> omega
      · refine hnothing fun e' left' ha hleft => ?_
        cases ha
        have hother : r.escrow.id ≠ id := fun hid => hgo ⟨hleft, hid⟩
        simp [cost, announces, hother]
  · exact hnothing fun e left ha => by cases ha

theorem sum_cost_le (es : List Escrow) : (es.map (cost id name)).sum ≤ (es.map (·.id)).count id := by
  induction es with
  | nil => simp
  | cons e es ih =>
    rw [List.map_cons, List.sum_cons, List.map_cons, List.count_cons]
    have hcost : cost id name e ≤ if e.id == id then 1 else 0 := by
      unfold cost announces
      split
      · next h => simp [(Bool.and_eq_true_iff.mp h).2]
      · exact Nat.zero_le _
    omega

theorem ids_moveAll (db : DB) (pick : Escrow → Bool) (target : State) (u : Int) :
    (db.moveAll pick target u).1.map (·.id) = (db.rows.toList.filter fun r => pick r.2.escrow).map (·.1) := by
  simp only [DB.moveAll, List.map_map]
  refine List.map_congr_left fun r hr => ?_
  have hmem := (List.mem_filter.mp hr).1
  rw [Std.ExtTreeMap.mem_toList_iff_getElem?_eq_some] at hmem
  exact (DB.id_moveRow pick target u r.2).trans (db.keyed r.1 r.2 hmem)

theorem count_moveAll {pick : Escrow → Bool} {target : State} {u : Int} (hs : s.db.AllLegit)
    (hpick : ∀ e, pick e = true → e.state = .waiting) (htarget : target ≠ .waiting)
    (hmono : (announcements id).earned s ≤ (announcements id).earned { s with db := (s.db.moveAll pick target u).2 }) :
    ((s.db.moveAll pick target u).1.map (·.id)).count id + (announcements id).earned s ≤
      (announcements id).earned { s with db := (s.db.moveAll pick target u).2 } := by
  rw [ids_moveAll]
  have hnodup : ((s.db.rows.toList.filter fun r => pick r.2.escrow).map (·.1)).Nodup := by
    have hkeys := s.db.rows.nodup_keys
    rw [← Std.ExtTreeMap.map_fst_toList_eq_keys] at hkeys
    exact hkeys.sublist (List.filter_sublist.map _)
  by_cases hmem : id ∈ (s.db.rows.toList.filter fun r => pick r.2.escrow).map (·.1)
  · obtain ⟨⟨key, r⟩, hr, hkey⟩ := List.mem_map.mp hmem
    obtain rfl : key = id := hkey
    obtain ⟨hr, hp⟩ := List.mem_filter.mp hr
    rw [Std.ExtTreeMap.mem_toList_iff_getElem?_eq_some] at hr
    have hr' : (s.db.moveAll pick target u).2.rows[key]? = some (DB.moveRow pick target u r) := by
      simp [DB.moveAll, hr]
    have hleaves : Leaves r (DB.moveRow pick target u r) := by
      refine ⟨.inl (hpick _ hp), ?_⟩
      rw [DB.moveRow, if_pos hp]
      exact htarget
    have hearned : 1 + (announcements key).earned s ≤
        (announcements key).earned { s with db := (s.db.moveAll pick target u).2 } :=
      earned_of_leaves hs hr hr' hleaves
    have hcount := List.nodup_iff_count_le_one.mp hnodup key
    omega
  · rw [List.count_eq_zero_of_not_mem hmem]
    omega

theorem statement_earns {pick : Escrow → Bool} {target : State} {c : Choice} {a : Swept} (hs : s.db.AllLegit)
    (hpick : ∀ e, pick e = true → e.state = .waiting) (htarget : target ≠ .waiting)
    (clean : ∀ seen dbTime m, c = .failed seen dbTime m →
      (s.db.moveAll pick target dbTime).1.filter (fun e => seen e.id) = [])
    (h : sweepStatement s (s.db.moveAll pick target) c = some (a, s'))
    (hmono : (announcements id).earned s ≤ (announcements id).earned s') :
    ∃ b, b + (announcements id).earned s ≤ 0 + (announcements id).earned s' ∧ (a.1.map (cost id name)).sum ≤ b := by
  rcases sweepStatement_cases h with ⟨-, seen, dbTime, m, rfl, rfl⟩ | ⟨dbTime, -, rfl, hsub⟩
  · refine ⟨0, by omega, ?_⟩
    rw [clean seen dbTime m rfl]
    simp
  · refine ⟨((s.db.moveAll pick target dbTime).1.map (·.id)).count id, ?_, ?_⟩
    · rw [Nat.zero_add]
      exact count_moveAll hs hpick htarget hmono
    · exact (sum_cost_le a.1).trans ((hsub.map _).count_le id)

theorem affords_release {t : Int} : Affords serve (announcements id) n q (Call.releaseDueTimeLocks t)
      (fun a b => (a.1.map (cost id .released)).sum ≤ b) 0 := by
  refine affords_call rfl fun s c hs _ hclean a s' hperform hmono => ?_
  refine statement_earns hs (fun e he => (of_releaseDue he).1) (by simp) ?_ hperform hmono
  rintro seen dbTime m rfl
  exact hclean

theorem affords_refund {t : Int} : Affords serve (announcements id) n q (Call.refundTimedOut t)
      (fun a b => (a.1.map (cost id .refunded)).sum ≤ b) 0 := by
  refine affords_call rfl fun s c hs _ hclean a s' hperform hmono => ?_
  refine statement_earns hs (fun e he => (of_timedOut he).1) (by simp) ?_ hperform hmono
  rintro seen dbTime m rfl
  exact hclean

theorem affords_confirm {D : Deployment} {key caller : String} :
    Affords serve (announcements id) n q (Service.confirm D key caller) (fun _ _ => True) 0 := by
  have hcall : Affords serve (announcements id) n q (Call.mutate key (.confirm (normalizeAddr D.strs caller)))
      (fun a b => ∀ e left, a = .ok (e, left) → left.kinds ≠ [] → cost id .released e ≤ b) 0 :=
    affords_mutate fun t u r up left hfn => (change_confirm u hfn).2
  refine hcall.bind fun a b hb => ?_
  split
  · exact .ret trivial
  · next e left =>
    split
    · next hkinds => exact (affords_publish (hb e left rfl hkinds)).bind fun _ _ _ => .ret trivial
    · exact .ret trivial

theorem affords_dispute {D : Deployment} {key caller reason : String} :
    Affords serve (announcements id) n q (Service.dispute D key caller reason) (fun _ _ => True) 0 := by
  simp only [Service.dispute]
  split
  · exact .ret trivial
  · have hcall : Affords serve (announcements id) n q
        (Call.mutate key (.dispute (normalizeAddr D.strs caller) (D.strs.trimSpace reason)))
        (fun a b => ∀ e left, a = .ok (e, left) → left.disputed = true → cost id .disputed e ≤ b) 0 :=
      affords_mutate fun t u r up left hfn => (change_dispute (t := t) u hfn).2
    refine hcall.bind fun a b hb => ?_
    split
    · exact .ret trivial
    · next e left =>
      split
      · next hdisputed => exact (affords_publish (hb e left rfl hdisputed)).bind fun _ _ _ => .ret trivial
      · exact .ret trivial

theorem affords_handlePaylinkVerified {D : Deployment} {plID txHash : String} :
    Affords serve (announcements id) n q (Service.handlePaylinkVerified D plID txHash) (fun _ _ => True) 0 := by
  refine affords_applyFunding.bind fun a b hb => ?_
  split
  · exact .ret trivial
  · exact .ret trivial
  · exact .ret trivial
  · next e left =>
    split
    · next hkinds => exact (affords_publish (hb e left rfl hkinds)).bind fun _ _ _ => .ret trivial
    · split
      · exact .ret trivial
      · exact .ret trivial

theorem affords_create {D : Deployment} {input : CreateInput} :
    Affords serve (announcements id) n q (Service.create D input) (fun _ _ => True) 0 := by
  unfold Service.create
  split
  · exact .ret trivial
  · refine (affords_idle rfl).bind fun now b hb => ?_
    subst hb
    split
    · exact .ret trivial
    · refine (affords_idle rfl).bind fun key b hb => ?_
      subst hb
      refine (affords_idle rfl).bind fun a b hb => ?_
      subst hb
      split
      · exact .ret trivial
      · exact .ret trivial
      · refine (affords_publish ?_).bind fun _ _ _ => .ret trivial
        simp [cost, announces]

theorem affords_sweep : Affords serve (announcements id) n q Service.sweep (fun _ _ => True) 0 := by
  refine (affords_idle rfl).bind fun now b hb => ?_
  subst hb
  refine affords_release.bind fun released b hb => ?_
  refine (affords_publishAll hb).bind fun _ b _ => ?_
  have hrefund : Affords serve (announcements id) n q (Call.refundTimedOut now)
      (fun a b => (a.1.map (cost id .refunded)).sum ≤ b) b :=
    affords_refund.more (Nat.zero_le b) fun a b b' hle h => h.trans hle
  exact hrefund.bind fun refunded b hb => affords_publishAll hb

theorem affords_handle {D : Deployment} : Affords serve (announcements id) n q (handle D q) (fun _ _ => True) 0 := by
  cases q with
  | create input => exact affords_create.bind fun _ _ _ => .ret trivial
  | confirm key caller => exact affords_confirm.bind fun _ _ _ => .ret trivial
  | dispute key caller reason => exact affords_dispute.bind fun _ _ _ => .ret trivial
  | paylinkVerified plID txHash => exact affords_handlePaylinkVerified.bind fun _ _ _ => .ret trivial
  | sweep => exact affords_sweep.bind fun _ _ _ => .ret trivial
end Programs

def CleanMove (c : Config Op Op.Answer Request World Reply) (m : Move Request Choice Empty) : Prop :=
  Allowed (fun _ _ s i e => NoRowsOnFailure s i e) c m

instance (c : Config Op Op.Answer Request World Reply) (m : Move Request Choice Empty) : Decidable (CleanMove c m) :=
  inferInstanceAs (Decidable (Allowed (fun _ _ s i e => NoRowsOnFailure s i e) c m))

variable {D : Deployment}

theorem announced_once (moves : List (Move Request Choice Empty))
    (clean : ∀ e ∈ trace (system D).step { shared := {} } moves, CleanMove e.1 e.2) (id : String) :
    (((system D).exec {} moves).shared.published.filter (announces id)).length ≤ 1 := by
  have hmet : ∀ e ∈ trace (system D).step { shared := {} } moves, Allowed (announcements id).guard e.1 e.2 := by
    intro e he
    have hproper := proper_run moves {} e he
    have hclean := clean e he
    obtain ⟨c, m⟩ := e
    cases m with
    | run n x => exact fun r i k hn => ⟨hproper r i k hn, hclean r i k hn⟩
    | start r => trivial
    | drift w => trivial
  have hserved : ∀ n q s i c a s', (announcements id).inv s → (announcements id).guard n q s i c →
      (system D).serve n q s i c = some (a, s') → (announcements id).inv s' :=
    fun n q s i c a s' hs hguard h => perform_legit hguard.1 h hs
  have hbegins : ∀ n q, Affords (system D).serve (announcements id) n q ((system D).main q)
      (fun _ _ => True) 0 := fun n q => affords_handle
  have hinit : (announcements id).inv {} := DB.allLegit_empty
  have hbudget := (system D).within_budget (announcements id) hserved (fun _ w => nomatch w) hbegins
    hinit (Nat.zero_le _) moves hmet
  refine hbudget.trans ?_
  simp only [announcements]
  split <;> omega

structure Kept (r r' : Row) : Prop where
  state : r.escrow.state ≠ .waiting → r'.escrow.state = r.escrow.state
  funded : r.escrow.funded = true → r'.escrow.funded = true ∧ r'.escrow.fundedTxHash = r.escrow.fundedTxHash

theorem Kept.change {t : Int} {r r' r'' : Row} (h : Kept r r') (hr' : Legit r') (hchange : Change t r' r'') :
    Kept r r'' where
  state hne := by
    have hstate := h.state hne
    rw [hchange.state_kept hr' (by rw [hstate]; exact hne), hstate]
  funded hpaid := by
    obtain ⟨hpaid', htx⟩ := h.funded hpaid
    obtain ⟨hpaid'', htx'⟩ := hchange.funded_kept hpaid'
    exact ⟨hpaid'', htx'.trans htx⟩

theorem kept_run (before after : List (Move Request Choice Empty)) {id : String} {r : Row}
    (found : ((system D).exec {} before).shared.db.rows[id]? = some r) :
    ∃ r', ((system D).exec {} (before ++ after)).shared.db.rows[id]? = some r' ∧ Kept r r' := by
  have hproper := proper_run (D := D) (before ++ after) {}
  rw [trace_append] at hproper
  have hserved : ∀ n q s i c a s', (s.db.AllLegit ∧ ∃ r', s.db.rows[id]? = some r' ∧ Kept r r') →
      (fun _ _ _ i _ => Op.Proper i) n q s i c → (system D).serve n q s i c = some (a, s') →
      s'.db.AllLegit ∧ ∃ r', s'.db.rows[id]? = some r' ∧ Kept r r' := by
    rintro n q s i c a s' ⟨hs, r', hr', hkept⟩ hi hserve
    refine ⟨perform_legit hi hserve hs, ?_⟩
    have hstep := perform_rows hi hserve id
    rw [hr'] at hstep
    generalize s'.db.rows[id]? = o at hstep
    cases hstep with
    | @change _ r'' hchange => exact ⟨r'', rfl, hkept.change (hs id r' hr') hchange⟩
  have hinit : ((system D).exec {} before).shared.db.AllLegit ∧
      ∃ r', ((system D).exec {} before).shared.db.rows[id]? = some r' ∧ Kept r r' :=
    ⟨allLegit_run before, r, found, fun _ => rfl, fun hpaid => ⟨hpaid, rfl⟩⟩
  have hrun := (system D).world_invariant hserved (fun _ w => nomatch w) hinit after
    fun e he => hproper e (List.mem_append_right _ he)
  rw [System.exec_append]
  exact hrun.2

def moment (c : Config Op Op.Answer Request World Reply) : Move Request Choice Empty → Option Int
  | .run n e => (c.next? n).map fun i => i.time e
  | _ => none

theorem step_row {c : Config Op Op.Answer Request World Reply} {m : Move Request Choice Empty}
    {id : String} {r : Row} (proper : Allowed (fun _ _ _ i _ => Op.Proper i) c m)
    (found : c.shared.db.rows[id]? = some r) : ∃ r', ((system D).step c m).shared.db.rows[id]? = some r' ∧
      (r' = r ∨ ∃ t, moment c m = some t ∧ Change t r r') := by
  rcases (system D).step_cases c m with
    ⟨q, -, hstep⟩ | ⟨n, e, q, i, k, a, s, rfl, hn, hs, hstep⟩ | ⟨w, -, -⟩ | hstep
  · rw [hstep]
    exact ⟨r, found, .inl rfl⟩
  · rw [hstep]
    have hrow := perform_rows (proper q i k hn) hs id
    rw [found] at hrow
    dsimp only
    generalize s.db.rows[id]? = o at hrow
    cases hrow with
    | @change _ r' hchange => exact ⟨r', rfl, .inr ⟨i.time e, by simp [moment, Config.next?, hn], hchange⟩⟩
  · exact nomatch w
  · rw [hstep]
    exact ⟨r, found, .inl rfl⟩

theorem Legit.approver {r : Row} (hr : Legit r) {a : String} (ha : a ∈ r.approvals) :
    a = r.escrow.creatorAddr ∨ a ∈ r.escrow.conditionParams.approvers := by
  have hmay := hr.confirmers a ha
  unfold Service.mayConfirm at hmay
  split at hmay
  · cases hmay
  · split at hmay
    · cases hmay
    · next hcreator => exact .inl (not_not.mp hcreator)
  · split at hmay
    · next hmem => exact .inr (List.contains_iff_mem.mp hmem)
    · cases hmay

/-- **Escrow safety.** -/
theorem escrow_safety (D : Deployment) (moves more : List (Move Request Choice Empty))
    (clean : ∀ e ∈ trace (system D).step { shared := {} } (moves ++ more), CleanMove e.1 e.2)
    (id : String) (r : Row) (found : ((system D).exec {} moves).shared.db.rows[id]? = some r)
    (creator : r.escrow.creatorAddr ≠ "") :
    (∃ r', ((system D).exec {} (moves ++ more)).shared.db.rows[id]? = some r' ∧ Kept r r') ∧
    (∀ a ∈ r.approvals, a = r.escrow.creatorAddr ∨ a ∈ r.escrow.conditionParams.approvers) ∧
    (((system D).exec {} (moves ++ more)).shared.published.filter (announces id)).length ≤ 1 ∧
    ∀ m r', ((system D).step ((system D).exec {} moves) m).shared.db.rows[id]? = some r' →
      r.escrow.state ≠ .released → r'.escrow.state = .released →
      r'.escrow.funded = true ∧ ∃ t, moment ((system D).exec {} moves) m = some t ∧ ConditionHolds r' t := by
  have hr := allLegit_run moves id r found
  refine ⟨kept_run moves more found, fun a ha => hr.approver ha, announced_once (moves ++ more) clean id,
    fun m r' found' hne hreleased => ?_⟩
  have hproper := proper_run (D := D) (moves ++ [m]) {}
  rw [trace_append] at hproper
  obtain ⟨r'', hr'', hcases⟩ := step_row (D := D)
    (hproper ((system D).exec {} moves, m) (List.mem_append_right _ List.mem_cons_self)) found
  obtain rfl := Option.some.inj (hr''.symm.trans found')
  rcases hcases with rfl | ⟨t, ht, hchange⟩
  · exact absurd hreleased hne
  · obtain ⟨hpaid, hholds⟩ := hchange.of_released hr creator hne hreleased
    exact ⟨hpaid, t, ht, hholds⟩

namespace Sample
def deployment : Deployment where
  strs := { trimSpace := fun s => s, toLower := fun s => s, toUpper := fun s => s }
  defaultTimeout := 100

def input : CreateInput where
  creatorAddr := "creator"
  plID := "pl-1"
  payeeAddr := "payee"
  refundTo := "creator"
  amount := "250"
  currency := "KES"
  conditionType := "time_lock"
  conditionParams := { releaseAt := some 10 }

def paid : List (Move Request Choice Empty) :=
  [.start (.create input), .run 0 (.ok 0 0), .run 0 (.text "esc-1"), .run 0 (.ok 0 0), .run 0 (.ok 0 0),
   .start (.paylinkVerified "pl-1" "0x1"), .run 1 (.ok 1 1)]

def paidRow : Row where
  escrow :=
    { id := "esc-1", plID := "pl-1", creatorAddr := "creator", payeeAddr := "payee", refundTo := "creator",
      amount := "250", currency := "KES", conditionType := .timeLock,
      conditionParams := { releaseAt := some 10 }, funded := true, fundedTxHash := "0x1",
      releaseAt := some 10, timeoutAt := 100, createdAt := 0, updatedAt := 1 }
  approvals := []

def pass (n : Nat) (release : Choice) : List (Move Request Choice Empty) :=
  [.start .sweep, .run n (.ok 11 11), .run n release, .run n (.ok 11 11), .run n (.ok 11 11)]
end Sample

/-- The first pass's statement is rolled back after it has returned the row, which is announced twice. -/
theorem released_twice :
    ((system Sample.deployment).exec {} Sample.paid).shared.db.rows["esc-1"]? = some Sample.paidRow ∧
      Sample.paidRow.escrow.creatorAddr ≠ "" ∧
      (((system Sample.deployment).exec {} (Sample.paid ++
          (Sample.pass 2 (.failed (fun _ => true) 11 "connection reset") ++
            Sample.pass 3 (.ok 11 11)))).shared.published.filter (announces "esc-1")).map (·.1) =
        [.released, .released] := by
  decide +kernel

/-- One pass whose statements take effect. -/
theorem escrow_safety_pass :
    (((system Sample.deployment).exec {} (Sample.paid ++ Sample.pass 2 (.ok 11 11))).shared.published.filter
        (announces "esc-1")).length ≤ 1 := by
  have clean : ∀ e ∈ trace (system Sample.deployment).step { shared := {} }
      (Sample.paid ++ Sample.pass 2 (.ok 11 11)), CleanMove e.1 e.2 := by
    decide +kernel
  have found : ((system Sample.deployment).exec {} Sample.paid).shared.db.rows["esc-1"]? = some Sample.paidRow := by
    decide +kernel
  have hsafe := escrow_safety Sample.deployment Sample.paid (Sample.pass 2 (.ok 11 11)) clean "esc-1"
    Sample.paidRow found (by decide)
  exact hsafe.2.2.1

end LinkMint.Escrows
