import Mathlib.Data.List.Nodup
import LinkMint.Orchestrator.Service

/-!
# The two stores

What a call does to the tables of the Postgres store: it adds a payment with a new id for a new
PayLink, or lets the payment of a PayLink follow its chain.
-/

namespace LinkMint.Orchestrator

open LinkMint.Lib

theorem project_changed {current next : State} {status : String} (h : project current status = .ok (next, true)) :
    current = .awaitingPayment ∧ isTerminal next ∧ fromChainStatus status = some next := by
  unfold project at h
  split at h
  · nomatch h
  · next target htarget =>
    split at h
    · nomatch h
    · split at h
      · next hedge =>
        obtain ⟨rfl, -⟩ := Prod.mk.inj (Except.ok.inj h)
        refine ⟨?_, ?_, htarget⟩
        · cases current with
          | awaitingPayment => rfl
          | settled | cancelled | failed => simp [transitions] at hedge
        · cases target with
          | awaitingPayment => cases current <;> simp [transitions] at hedge
          | settled | cancelled | failed => rfl
      · nomatch h

theorem project_unchanged {current next : State} {status : String} (h : project current status = .ok (next, false)) :
    next = current := by
  unfold project at h
  split at h
  · nomatch h
  · split at h
    · exact (Prod.mk.inj (Except.ok.inj h)).1.symm
    · split at h <;> nomatch h

structure Follows (p q : Payment) : Prop where
  id : q.id = p.id
  payLinkID : q.payLinkID = p.payLinkID
  seq : p.lastEventSeq ≤ q.lastEventSeq
  terminal : isTerminal p.status → q.status = p.status

theorem Follows.refl (p : Payment) : Follows p p := ⟨rfl, rfl, Nat.le_refl _, fun _ => rfl⟩

theorem Follows.trans {p q r : Payment} (h : Follows p q) (h' : Follows q r) : Follows p r where
  id := h'.id.trans h.id
  payLinkID := h'.payLinkID.trans h.payLinkID
  seq := Nat.le_trans h.seq h'.seq
  terminal ht := by
    have hq := h.terminal ht
    rw [← hq]
    exact h'.terminal (hq ▸ ht)

namespace Postgres
structure Keyed (s : Tables) : Prop where
  ids : s.payments.Pairwise fun p q => p.id ≠ q.id
  payLinks : s.payments.Pairwise fun p q => p.payLinkID ≠ q.payLinkID

theorem keyed_empty : Keyed {} := ⟨List.Pairwise.nil, List.Pairwise.nil⟩

variable {p : Payment}

theorem eq_of_column {β : Type} {f : Payment → β} {rows : List Payment} (h : rows.Pairwise fun p q => f p ≠ f q)
    {q : Payment} (hp : p ∈ rows) (hq : q ∈ rows) (heq : f p = f q) : p = q :=
  List.inj_on_of_nodup_map (List.pairwise_map.mpr h) hp hq heq

theorem Keyed.eq_of_id {s : Tables} (h : Keyed s) {q : Payment} (hp : p ∈ s.payments) (hq : q ∈ s.payments)
    (heq : p.id = q.id) : p = q :=
  eq_of_column h.ids hp hq heq

theorem Keyed.eq_of_payLinkID {s : Tables} (h : Keyed s) {q : Payment} (hp : p ∈ s.payments) (hq : q ∈ s.payments)
    (heq : p.payLinkID = q.payLinkID) : p = q :=
  eq_of_column h.payLinks hp hq heq

theorem mem_of_getPaymentByPayLink {s : Tables} {payLinkID : String} (h : getPaymentByPayLink s payLinkID = some p) : p ∈ s.payments ∧ p.payLinkID = payLinkID :=
  ⟨List.mem_of_find?_eq_some h, by simpa using List.find?_some h⟩

theorem Keyed.getPayment_iff {s : Tables} (h : Keyed s) {id : String} :
    getPayment s id = some p ↔ p ∈ s.payments ∧ p.id = id := by
  constructor
  · intro hp
    exact ⟨List.mem_of_find?_eq_some hp, by simpa using List.find?_some hp⟩
  · rintro ⟨hp, rfl⟩
    obtain ⟨q, hq⟩ : ∃ q, getPayment s p.id = some q := by
      rw [← Option.isSome_iff_exists, getPayment, List.find?_isSome]
      exact ⟨p, hp, by simp⟩
    rw [hq, h.eq_of_id (List.mem_of_find?_eq_some hq) hp (by simpa using List.find?_some hq)]

theorem Keyed.getPaymentByPayLink_iff {s : Tables} (h : Keyed s) {payLinkID : String} :
    getPaymentByPayLink s payLinkID = some p ↔ p ∈ s.payments ∧ p.payLinkID = payLinkID := by
  constructor
  · exact mem_of_getPaymentByPayLink
  · rintro ⟨hp, rfl⟩
    obtain ⟨q, hq⟩ : ∃ q, getPaymentByPayLink s p.payLinkID = some q := by
      rw [← Option.isSome_iff_exists, getPaymentByPayLink, List.find?_isSome]
      exact ⟨p, hp, by simp⟩
    obtain ⟨hmem, heq⟩ := mem_of_getPaymentByPayLink hq
    rw [hq, h.eq_of_payLinkID hmem hp heq]

theorem createPayment_eq_some {s s' : Tables} (h : createPayment s p = some s') :
    (∀ q ∈ s.payments, q.id ≠ p.id ∧ q.payLinkID ≠ p.payLinkID) ∧ s' = { s with payments := s.payments ++ [p] } := by
  unfold createPayment at h
  split at h
  · nomatch h
  · next hnone =>
    refine ⟨fun q hq => ?_, (Option.some.inj h).symm⟩
    simp only [List.any_eq_true, not_exists, not_and] at hnone
    simpa using hnone q hq

theorem Keyed.create {s : Tables} (h : Keyed s) (hnew : ∀ q ∈ s.payments, q.id ≠ p.id ∧ q.payLinkID ≠ p.payLinkID) :
    Keyed { s with payments := s.payments ++ [p] } where
  ids := List.pairwise_append.mpr ⟨h.ids, List.pairwise_singleton _ _, fun q hq r hr => by
    rw [List.mem_singleton.mp hr]
    exact (hnew q hq).1⟩
  payLinks := List.pairwise_append.mpr ⟨h.payLinks, List.pairwise_singleton _ _, fun q hq r hr => by
    rw [List.mem_singleton.mp hr]
    exact (hnew q hq).2⟩

theorem mem_update {s : Tables} {q x : Payment} (h : Keyed s) (hp : p ∈ s.payments) (hfollows : Follows p q) :
    x ∈ (update s q).payments ↔ x = q ∨ x ∈ s.payments ∧ x ≠ p := by
  simp only [update, List.mem_map]
  constructor
  · rintro ⟨y, hy, rfl⟩
    split
    · exact .inl rfl
    · next hne =>
      refine .inr ⟨hy, ?_⟩
      rintro rfl
      exact hne hfollows.id.symm
  · rintro (rfl | ⟨hx, hne⟩)
    · exact ⟨p, hp, if_pos hfollows.id.symm⟩
    · refine ⟨x, hx, if_neg ?_⟩
      intro heq
      exact hne (h.eq_of_id hx hp (heq.trans hfollows.id))

theorem column_update {β : Type} {f : Payment → β} {s : Tables} {q : Payment} (h : Keyed s) (hp : p ∈ s.payments)
    (hid : q.id = p.id) (hf : f q = f p) : (update s q).payments.map f = s.payments.map f := by
  simp only [update, List.map_map]
  refine List.map_congr_left fun x hx => ?_
  simp only [Function.comp]
  split
  · next heq => rw [hf, h.eq_of_id hx hp (heq.trans hid)]
  · rfl

theorem Keyed.update {s : Tables} (h : Keyed s) {q : Payment} (hp : p ∈ s.payments) (hfollows : Follows p q) :
    Keyed (update s q) where
  ids := by
    have hids := h.ids
    rw [← List.pairwise_map (f := fun x : Payment => x.id) (R := (· ≠ ·))] at hids ⊢
    rwa [column_update h hp hfollows.id hfollows.id]
  payLinks := by
    have hlinks := h.payLinks
    rw [← List.pairwise_map (f := fun x : Payment => x.payLinkID) (R := (· ≠ ·))] at hlinks ⊢
    rwa [column_update h hp hfollows.id hfollows.payLinkID]

def Advances (payLinkID : String) (project : ProjectFn) (s : Tables) (a : Advance) (s' : Tables) : Prop :=
  s'.payments = s.payments ∧ (∀ p, a ≠ .done p true) ∨
  ∃ p ∈ s.payments, ∃ q changed, p.payLinkID = payLinkID ∧ a = .done q changed ∧
    s'.payments = (update s q).payments ∧ q.id = p.id ∧ q.payLinkID = p.payLinkID ∧
    p.lastEventSeq ≤ q.lastEventSeq ∧ project p.status = .ok (q.status, changed)

theorem applyChainEvent_advances (s : Tables) (ev : EventRef) (project : ProjectFn) (now : Time)
    (hkeep : ∀ cur next, project cur = .ok (next, false) → next = cur) :
    Advances ev.payLinkID project s (applyChainEvent s ev project now).1 (applyChainEvent s ev project now).2 := by
  unfold applyChainEvent
  split
  · exact .inl ⟨rfl, nofun⟩
  · next p hp =>
    obtain ⟨hmem, hlink⟩ := mem_of_getPaymentByPayLink hp
    split
    · exact .inl ⟨rfl, nofun⟩
    · dsimp only
      split
      · exact .inl ⟨rfl, nofun⟩
      · next next changed hproject =>
        split
        · next hchanged =>
          subst hchanged
          exact .inr ⟨p, hmem, _, true, hlink, rfl, rfl, rfl, rfl, Nat.le_max_left _ _, hproject⟩
        · next hchanged =>
          obtain rfl : changed = false := by simpa using hchanged
          refine .inr ⟨p, hmem, _, false, hlink, rfl, rfl, rfl, rfl, Nat.le_max_left _ _, ?_⟩
          rw [hproject, hkeep _ _ hproject]

theorem reconcile_advances (s : Tables) (payLinkID : String) (project : ProjectFn) (now : Time) :
    Advances payLinkID project s (reconcile s payLinkID project now).1 (reconcile s payLinkID project now).2 := by
  unfold reconcile
  split
  · exact .inl ⟨rfl, nofun⟩
  · next p hp =>
    obtain ⟨hmem, hlink⟩ := mem_of_getPaymentByPayLink hp
    split
    · exact .inl ⟨rfl, nofun⟩
    · next next changed hproject =>
      split
      · next hchanged =>
        subst hchanged
        exact .inr ⟨p, hmem, _, true, hlink, rfl, rfl, rfl, rfl, Nat.le_refl _, hproject⟩
      · exact .inl ⟨rfl, nofun⟩
end Postgres

namespace Memory
open Postgres (Tables Keyed)

structure Same (m : Maps) (s : Tables) : Prop where
  keyed : Keyed s
  byID : ∀ id p, m.byID[id]? = some p ↔ p ∈ s.payments ∧ p.id = id
  byPL : ∀ payLinkID id, m.byPL[payLinkID]? = some id ↔ ∃ p ∈ s.payments, p.payLinkID = payLinkID ∧ p.id = id
  applied : m.applied = s.appliedChainEvents

theorem same_empty : Same {} {} where
  keyed := Postgres.keyed_empty
  byID id p := by simp
  byPL payLinkID id := by simp
  applied := rfl

section
variable {m : Maps} {s : Tables}

theorem Same.getPayment (h : Same m s) (id : String) : getPayment m id = Postgres.getPayment s id := by
  refine Option.ext fun p => ?_
  rw [h.keyed.getPayment_iff]
  exact h.byID id p

theorem Same.getPaymentByPayLink (h : Same m s) (payLinkID : String) :
    getPaymentByPayLink m payLinkID = Postgres.getPaymentByPayLink s payLinkID := by
  refine Option.ext fun p => ?_
  rw [h.keyed.getPaymentByPayLink_iff, Memory.getPaymentByPayLink, Option.bind_eq_some_iff]
  constructor
  · rintro ⟨id, hid, hp⟩
    obtain ⟨q, hq, hlink, rfl⟩ := (h.byPL payLinkID id).mp hid
    obtain ⟨hp, heq⟩ := (h.byID _ p).mp hp
    rw [h.keyed.eq_of_id hp hq heq]
    exact ⟨hq, hlink⟩
  · rintro ⟨hp, hlink⟩
    exact ⟨p.id, (h.byPL _ _).mpr ⟨p, hp, hlink, rfl⟩, (h.byID _ _).mpr ⟨hp, rfl⟩⟩

theorem Same.createPayment (h : Same m s) {p : Payment} (hnew : Postgres.getPayment s p.id = none) :
    Option.Rel Same (createPayment m p) (Postgres.createPayment s p) := by
  have hid : ∀ q ∈ s.payments, q.id ≠ p.id := by
    intro q hq heq
    rw [h.keyed.getPayment_iff.mpr ⟨hq, heq⟩] at hnew
    nomatch hnew
  by_cases hlink : ∃ q ∈ s.payments, q.payLinkID = p.payLinkID
  · obtain ⟨q, hq, hlink⟩ := hlink
    have hmem : m.byPL.contains p.payLinkID := by
      rw [Std.ExtTreeMap.contains_eq_isSome_getElem?, (h.byPL _ q.id).mpr ⟨q, hq, hlink, rfl⟩]
      rfl
    have hany : s.payments.any fun x => decide (x.id = p.id ∨ x.payLinkID = p.payLinkID) :=
      List.any_eq_true.mpr ⟨q, hq, by simp [hlink]⟩
    rw [Memory.createPayment, if_pos hmem, Postgres.createPayment, if_pos hany]
    exact .none
  · have hlinks : ∀ q ∈ s.payments, q.payLinkID ≠ p.payLinkID := fun q hq heq => hlink ⟨q, hq, heq⟩
    have hmem : ¬ m.byPL.contains p.payLinkID := by
      rw [Std.ExtTreeMap.contains_eq_isSome_getElem?, Option.isSome_iff_exists]
      rintro ⟨id, hsome⟩
      obtain ⟨q, hq, heq, -⟩ := (h.byPL _ id).mp hsome
      exact hlinks q hq heq
    have hany : ¬ s.payments.any fun x => decide (x.id = p.id ∨ x.payLinkID = p.payLinkID) := by
      rw [List.any_eq_true]
      rintro ⟨q, hq, hor⟩
      rcases of_decide_eq_true hor with heq | heq
      · exact hid q hq heq
      · exact hlinks q hq heq
    rw [Memory.createPayment, if_neg hmem, Postgres.createPayment, if_neg hany]
    refine .some ⟨h.keyed.create fun q hq => ⟨hid q hq, hlinks q hq⟩, fun id q => ?_, fun payLinkID id => ?_, h.applied⟩
    · simp only [Std.ExtTreeMap.getElem?_insert, Std.LawfulEqOrd.compare_eq_iff_eq, List.mem_append, List.mem_singleton]
      split
      · next heq =>
        subst heq
        constructor
        · intro hq
          exact ⟨.inr (Option.some.inj hq).symm, by rw [Option.some.inj hq]⟩
        · rintro ⟨hq | rfl, heq⟩
          · exact absurd heq (hid q hq)
          · rfl
      · next hne =>
        rw [h.byID]
        constructor
        · exact fun hq => ⟨.inl hq.1, hq.2⟩
        · rintro ⟨hq | rfl, rfl⟩
          · exact ⟨hq, rfl⟩
          · exact absurd rfl hne
    · simp only [Std.ExtTreeMap.getElem?_insert, Std.LawfulEqOrd.compare_eq_iff_eq, List.mem_append, List.mem_singleton]
      split
      · next heq =>
        subst heq
        constructor
        · intro hsome
          exact ⟨p, .inr rfl, rfl, Option.some.inj hsome⟩
        · rintro ⟨q, hq | rfl, hlink, rfl⟩
          · exact absurd hlink (hlinks q hq)
          · rfl
      · next hne =>
        rw [h.byPL]
        constructor
        · rintro ⟨q, hq, hrest⟩
          exact ⟨q, .inl hq, hrest⟩
        · rintro ⟨q, hq | rfl, hlink, hid'⟩
          · exact ⟨q, hq, hlink, hid'⟩
          · exact absurd hlink hne

theorem Same.update (h : Same m s) {p q : Payment} (hp : p ∈ s.payments) (hfollows : Follows p q) :
    Same { m with byID := m.byID.insert q.id q } (Postgres.update s q) where
  keyed := h.keyed.update hp hfollows
  byID id x := by
    simp only [Std.ExtTreeMap.getElem?_insert, Std.LawfulEqOrd.compare_eq_iff_eq,
      Postgres.mem_update h.keyed hp hfollows]
    split
    · next heq =>
      subst heq
      constructor
      · intro hx
        exact ⟨.inl (Option.some.inj hx).symm, by rw [Option.some.inj hx]⟩
      · rintro ⟨rfl | ⟨hx, hne⟩, heq⟩
        · rfl
        · exact absurd (h.keyed.eq_of_id hx hp (heq.trans hfollows.id)) hne
    · next hne =>
      rw [h.byID]
      constructor
      · rintro ⟨hx, rfl⟩
        refine ⟨.inr ⟨hx, ?_⟩, rfl⟩
        rintro rfl
        exact hne hfollows.id
      · rintro ⟨rfl | ⟨hx, -⟩, rfl⟩
        · exact absurd rfl hne
        · exact ⟨hx, rfl⟩
  byPL payLinkID id := by
    simp only [h.byPL, Postgres.mem_update h.keyed hp hfollows]
    constructor
    · rintro ⟨x, hx, hlink, hid⟩
      by_cases hxp : x = p
      · subst hxp
        exact ⟨q, .inl rfl, hfollows.payLinkID.trans hlink, hfollows.id.trans hid⟩
      · exact ⟨x, .inr ⟨hx, hxp⟩, hlink, hid⟩
    · rintro ⟨x, rfl | ⟨hx, -⟩, hlink, hid⟩
      · exact ⟨p, hp, hfollows.payLinkID.symm.trans hlink, hfollows.id.symm.trans hid⟩
      · exact ⟨x, hx, hlink, hid⟩
  applied := h.applied

theorem Same.applyChainEvent (h : Same m s) (ev : EventRef) (status : String) (now : Time) :
    (applyChainEvent m ev (fun cur => project cur status) now).1 =
      (Postgres.applyChainEvent s ev (fun cur => project cur status) now).1 ∧
    Same (applyChainEvent m ev (fun cur => project cur status) now).2
      (Postgres.applyChainEvent s ev (fun cur => project cur status) now).2 := by
  simp only [Memory.applyChainEvent, Postgres.applyChainEvent, h.getPaymentByPayLink, h.applied]
  cases hp : Postgres.getPaymentByPayLink s ev.payLinkID with
  | none => exact ⟨rfl, h⟩
  | some p =>
    obtain ⟨hmem, -⟩ := Postgres.mem_of_getPaymentByPayLink hp
    have hmarked : Same { m with applied := (ev.payLinkID, ev.seq) :: s.appliedChainEvents }
        { s with appliedChainEvents := (ev.payLinkID, ev.seq) :: s.appliedChainEvents } :=
      ⟨⟨h.keyed.ids, h.keyed.payLinks⟩, h.byID, h.byPL, rfl⟩
    dsimp only
    split
    · exact ⟨rfl, h⟩
    · split
      · exact ⟨rfl, hmarked⟩
      · next next changed hproject =>
        split
        · next hchanged =>
          subst hchanged
          have hfollows : Follows p { p with status := next, lastEventSeq := max p.lastEventSeq ev.seq, updatedAt := now } :=
            ⟨rfl, rfl, Nat.le_max_left _ _, fun ht => by rw [(project_changed hproject).1] at ht; nomatch ht⟩
          exact ⟨rfl, hmarked.update hmem hfollows⟩
        · have hfollows : Follows p { p with lastEventSeq := max p.lastEventSeq ev.seq } :=
            ⟨rfl, rfl, Nat.le_max_left _ _, fun _ => rfl⟩
          exact ⟨rfl, hmarked.update hmem hfollows⟩

theorem Same.reconcile (h : Same m s) (payLinkID status : String) (now : Time) :
    (reconcile m payLinkID (fun cur => project cur status) now).1 =
      (Postgres.reconcile s payLinkID (fun cur => project cur status) now).1 ∧
    Same (reconcile m payLinkID (fun cur => project cur status) now).2
      (Postgres.reconcile s payLinkID (fun cur => project cur status) now).2 := by
  simp only [Memory.reconcile, Postgres.reconcile, h.getPaymentByPayLink]
  cases hp : Postgres.getPaymentByPayLink s payLinkID with
  | none => exact ⟨rfl, h⟩
  | some p =>
    obtain ⟨hmem, -⟩ := Postgres.mem_of_getPaymentByPayLink hp
    dsimp only
    split
    · exact ⟨rfl, h⟩
    · next next changed hproject =>
      split
      · next hchanged =>
        subst hchanged
        have hfollows : Follows p { p with status := next, updatedAt := now } :=
          ⟨rfl, rfl, Nat.le_refl _, fun ht => by rw [(project_changed hproject).1] at ht; nomatch ht⟩
        exact ⟨rfl, h.update hmem hfollows⟩
      · exact ⟨rfl, h⟩
end

structure SameWorld (w : World Maps) (w' : World Tables) : Prop where
  store : Same w.store w'.store
  chain : w.chain = w'.chain
  published : w.published = w'.published
  owed : w.owed = w'.owed

abbrev Alike {α : Type} (x : Option (α × World Maps)) (x' : Option (α × World Tables)) : Prop :=
  Option.Rel (fun x x' => x.1 = x'.1 ∧ SameWorld x.2 x'.2) x x'

section
variable {w : World Maps} {w' : World Tables}

theorem SameWorld.serveAdvance (h : SameWorld w w') (n : Nat) {f : Time → Advance × Maps} {f' : Time → Advance × Tables}
    (hf : ∀ t, (f t).1 = (f' t).1 ∧ Same (f t).2 (f' t).2) (e : Choice) :
    Alike (serveAdvance n w f e) (serveAdvance n w' f' e) := by
  cases e with
  | failed m => exact .some ⟨rfl, h⟩
  | time t =>
    obtain ⟨h₁, h₂⟩ := hf t
    simp only [Orchestrator.serveAdvance]
    revert h₁ h₂
    rcases f t with ⟨a, s⟩
    rcases f' t with ⟨a', s'⟩
    rintro rfl hs
    rcases a with _ | p | ⟨p, _ | _⟩
    · exact .some ⟨rfl, hs, h.chain, h.published, h.owed⟩
    · exact .some ⟨rfl, hs, h.chain, h.published, h.owed⟩
    · exact .some ⟨rfl, hs, h.chain, h.published, h.owed⟩
    · exact .some ⟨rfl, hs, h.chain, h.published, congrArg ((n, p) :: ·) h.owed⟩
  | _ => exact .none

theorem SameWorld.serve (h : SameWorld w w') (n : Nat) (r : Request) (i : Op) (e : Choice) :
    Alike (serve Memory.store n r w i e) (serve Postgres.store n r w' i e) := by
  have hread : ∀ (x : Option Payment), Alike (serveRead w x e) (serveRead w' x e) := by
    intro x
    cases e with
    | ok | failed => exact .some ⟨rfl, h⟩
    | _ => exact .none
  cases i with
  | getPayLink id =>
    cases e with
    | payLink | failed => exact .some ⟨rfl, h⟩
    | _ => exact .none
  | now =>
    cases e with
    | time => exact .some ⟨rfl, h⟩
    | _ => exact .none
  | newID =>
    cases e with
    | id => exact .some ⟨rfl, h⟩
    | _ => exact .none
  | createPayment p =>
    cases e with
    | failed => exact .some ⟨rfl, h⟩
    | ok =>
      simp only [Orchestrator.serve, serveCreate]
      rw [show Memory.store.getPayment w.store p.id = Postgres.store.getPayment w'.store p.id from h.store.getPayment p.id]
      cases hid : Postgres.store.getPayment w'.store p.id with
      | some q => exact .none
      | none =>
        have hcreate := h.store.createPayment (p := p) hid
        simp only [Memory.store, Postgres.store]
        revert hcreate
        cases Memory.createPayment w.store p <;> cases Postgres.createPayment w'.store p <;> intro hcreate
        · exact .some ⟨rfl, h⟩
        · nomatch hcreate
        · nomatch hcreate
        · cases hcreate with
          | some hs => exact .some ⟨rfl, hs, h.chain, h.published, h.owed⟩
    | _ => exact .none
  | getPayment id =>
    have hsame : Memory.store.getPayment w.store id = Postgres.store.getPayment w'.store id := h.store.getPayment id
    simp only [Orchestrator.serve, hsame]
    exact hread _
  | getPaymentByPayLink id =>
    have hsame : Memory.store.getPaymentByPayLink w.store id = Postgres.store.getPaymentByPayLink w'.store id :=
      h.store.getPaymentByPayLink id
    simp only [Orchestrator.serve, hsame]
    exact hread _
  | payLinkStatus id =>
    rcases e with _ | m | _ | _ | _ | ⟨_ | status⟩ | _
    all_goals first | exact .none | exact .some ⟨rfl, h⟩ | skip
    simp only [Orchestrator.serve, servePayLinkStatus, h.chain]
    split
    · exact .some ⟨rfl, h⟩
    · exact .none
  | nextEvent =>
    cases e with
    | event =>
      simp only [Orchestrator.serve, serveNextEvent, h.chain]
      split
      · exact .some ⟨rfl, h⟩
      · exact .none
    | _ => exact .none
  | applyChainEvent ev status => exact h.serveAdvance n (fun t => h.store.applyChainEvent ev status t) e
  | reconcile id status => exact h.serveAdvance n (fun t => h.store.reconcile id status t) e
  | publish name p =>
    cases e with
    | ok =>
      exact .some ⟨rfl, h.store, h.chain, congrArg (· ++ [(name, p)]) h.published,
        congrArg (List.filter fun x => decide (x.1 ≠ n)) h.owed⟩
    | _ => exact .none

theorem exec_same (format : Time → String) (moves : List (Move Request Choice Settlement)) :
    SameWorld ((system format Memory.store).exec { store := Memory.store.empty } moves).shared
        ((system format Postgres.store).exec { store := Postgres.store.empty } moves).shared ∧
      ((system format Memory.store).exec { store := Memory.store.empty } moves).procs =
        ((system format Postgres.store).exec { store := Postgres.store.empty } moves).procs := by
  have main : (system format Memory.store).main = (system format Postgres.store).main := rfl
  refine System.simulates main ?_ ?_ ?_ moves
  · intro n r s s' i e h
    exact h.serve n r i e
  · intro s s' x h
    exact ⟨h.store, congrArg (Chain.settle · x.payLinkID x.final) h.chain, h.published, h.owed⟩
  · exact ⟨same_empty, rfl, rfl, rfl⟩
end
end Memory

end LinkMint.Orchestrator
