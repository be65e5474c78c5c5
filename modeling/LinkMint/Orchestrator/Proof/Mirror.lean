import LinkMint.Orchestrator.Proof.Stores

/-!
# Payments mirror the chain

On the Postgres store every step keeps `Mirrors`: one payment for a PayLink, in the state of the
status the chain has reached, and one announcement of the outcome, handed over or owed by the
request that changed the state.
-/

namespace LinkMint.Orchestrator

open LinkMint.Lib

theorem Chain.final?_settle {chain : Chain} {id : String} {f : Final} (h : chain.final? id = some f) (id' : String)
    (f' : Final) : (chain.settle id' f').final? id = some f := by
  unfold Chain.settle
  split
  · exact h
  · next hnone =>
    have hne : id ≠ id' := by
      rintro rfl
      rw [h] at hnone
      nomatch hnone
    rw [Chain.final?, List.lookup_cons, beq_false_of_ne hne]
    exact h

def Chain.Extends (chain chain' : Chain) : Prop := ∀ id f, chain.final? id = some f → chain'.final? id = some f

theorem Chain.says_of_extends {chain chain' : Chain} (h : chain.Extends chain') {id status : String}
    (hsaid : chain.says id status) : chain'.says id status := by
  unfold Chain.says at hsaid ⊢
  split at hsaid
  · rfl
  · rfl
  · obtain ⟨f, hf, hstate⟩ := Option.map_eq_some_iff.mp (of_decide_eq_true hsaid)
    exact decide_eq_true (Option.map_eq_some_iff.mpr ⟨f, h id f hf, hstate⟩)

theorem Chain.final_of_says {chain : Chain} {id status : String} {next : State} (h : chain.says id status)
    (hstatus : fromChainStatus status = some next) (hterminal : isTerminal next) :
    ∃ f, chain.final? id = some f ∧ next = f.state := by
  unfold Chain.says at h
  rw [hstatus] at h
  cases next with
  | awaitingPayment => nomatch hterminal
  | settled | cancelled | failed =>
    obtain ⟨f, hf, hstate⟩ := Option.map_eq_some_iff.mp (of_decide_eq_true h)
    exact ⟨f, hf, hstate.symm⟩

def outcomeNames : List String := ["payment.settled", "payment.cancelled", "payment.failed"]

def World.outcomes {σ : Type} (w : World σ) (id : String) : List (String × Payment) :=
  w.published.filter fun e => e.1 ∈ outcomeNames ∧ e.2.id = id

def World.owes {σ : Type} (w : World σ) (id : String) : List (Nat × Payment) := w.owed.filter fun x => x.2.id = id

def World.owedBy {σ : Type} (w : World σ) (n : Nat) : List (Nat × Payment) := w.owed.filter fun x => x.1 = n

theorem mem_outcomeNames {state : State} {name : String} (h : domainEventForState state = some name) :
    name ∈ outcomeNames := by
  cases state with
  | awaitingPayment => nomatch h
  | settled | cancelled | failed =>
    cases h
    decide

theorem exists_event {state : State} (h : isTerminal state) : ∃ name, domainEventForState state = some name := by
  cases state with
  | awaitingPayment => nomatch h
  | settled | cancelled | failed => exact ⟨_, rfl⟩

open Postgres (Tables Keyed Advances)

structure Mirrors (w : World Tables) : Prop where
  keyed : Keyed w.store
  normalised : ∀ p ∈ w.store.payments, ∃ h, p.payLinkID = normalizeHash h
  status : ∀ p ∈ w.store.payments, p.status = .awaitingPayment ∨ ∃ f, w.chain.final? p.payLinkID = some f ∧ p.status = f.state
  count : ∀ p ∈ w.store.payments, (w.outcomes p.id).length + (w.owes p.id).length = if isTerminal p.status then 1 else 0
  events : ∀ e ∈ w.published, e.1 ∈ outcomeNames →
    ∃ p ∈ w.store.payments, p.id = e.2.id ∧ domainEventForState p.status = some e.1
  owed : ∀ x ∈ w.owed, ∃ p ∈ w.store.payments, p.id = x.2.id ∧ p.status = x.2.status

namespace Mirrors
variable {w : World Tables}

theorem empty : Mirrors { store := {} } where
  keyed := Postgres.keyed_empty
  normalised := by simp
  status := by simp
  count := by simp
  events := by simp
  owed := by simp

theorem settle (h : Mirrors w) (id : String) (f : Final) : Mirrors { w with chain := w.chain.settle id f } where
  keyed := h.keyed
  normalised := h.normalised
  status p hp := (h.status p hp).imp_right fun ⟨g, hg, hstate⟩ => ⟨g, Chain.final?_settle hg id f, hstate⟩
  count := h.count
  events := h.events
  owed := h.owed

theorem create (h : Mirrors w) {p : Payment} (hnew : ∀ q ∈ w.store.payments, q.id ≠ p.id ∧ q.payLinkID ≠ p.payLinkID)
    (hlink : ∃ x, p.payLinkID = normalizeHash x) (hstatus : p.status = .awaitingPayment) :
    Mirrors { w with store := { w.store with payments := w.store.payments ++ [p] } } := by
  have old : ∀ {P : Payment → Prop}, (∃ q ∈ w.store.payments, P q) → ∃ q ∈ w.store.payments ++ [p], P q := by
    rintro P ⟨q, hq, hP⟩
    exact ⟨q, List.mem_append_left _ hq, hP⟩
  have each : ∀ {P : Payment → Prop}, (∀ q ∈ w.store.payments, P q) → P p → ∀ q ∈ w.store.payments ++ [p], P q := by
    intro P hold hp q hq
    rcases List.mem_append.mp hq with hq | hq
    · exact hold q hq
    · rwa [List.mem_singleton.mp hq]
  have houtcomes : w.outcomes p.id = [] := by
    rw [World.outcomes, List.filter_eq_nil_iff]
    intro e he hname
    obtain ⟨hname, hid⟩ := of_decide_eq_true hname
    obtain ⟨q, hq, hqid, -⟩ := h.events e he hname
    exact (hnew q hq).1 (hqid.trans hid)
  have howes : w.owes p.id = [] := by
    rw [World.owes, List.filter_eq_nil_iff]
    intro x hx hid
    obtain ⟨q, hq, hqid, -⟩ := h.owed x hx
    exact (hnew q hq).1 (hqid.trans (of_decide_eq_true hid))
  refine ⟨h.keyed.create hnew, each h.normalised hlink, each h.status (.inl hstatus), each h.count ?_, ?_, ?_⟩
  · change (w.outcomes p.id).length + (w.owes p.id).length = _
    rw [houtcomes, howes, hstatus]
    rfl
  · exact fun e he hname => old (h.events e he hname)
  · exact fun x hx => old (h.owed x hx)

section
variable {s' : Tables} {p q : Payment}

theorem follow (h : Mirrors w) (hp : p ∈ w.store.payments) (hfollows : Follows p q) (hstatus : q.status = p.status)
    (hs' : s'.payments = (Postgres.update w.store q).payments) : Mirrors { w with store := s' } := by
  have hmem : ∀ x, x ∈ s'.payments ↔ x = q ∨ x ∈ w.store.payments ∧ x ≠ p := fun x => by
    rw [hs', Postgres.mem_update h.keyed hp hfollows]
  have each : ∀ {P : Payment → Prop}, (∀ x ∈ w.store.payments, P x) → (P p → P q) → ∀ x ∈ s'.payments, P x := by
    intro P hold hpq x hx
    rcases (hmem x).mp hx with rfl | ⟨hx, -⟩
    · exact hpq (hold p hp)
    · exact hold x hx
  have found : ∀ {P : Payment → Prop}, (P p → P q) → (∃ x ∈ w.store.payments, P x) → ∃ x ∈ s'.payments, P x := by
    rintro P hpq ⟨x, hx, hP⟩
    by_cases hxp : x = p
    · exact ⟨q, (hmem q).mpr (.inl rfl), hpq (hxp ▸ hP)⟩
    · exact ⟨x, (hmem x).mpr (.inr ⟨hx, hxp⟩), hP⟩
  have hkeyed := h.keyed.update hp hfollows
  refine ⟨⟨hs' ▸ hkeyed.ids, hs' ▸ hkeyed.payLinks⟩, each h.normalised ?_, each h.status ?_, each h.count ?_, ?_, ?_⟩
  · rw [hfollows.payLinkID]
    exact id
  · rw [hfollows.payLinkID, hstatus]
    exact id
  · rw [hfollows.id, hstatus]
    exact id
  · exact fun e he hname => found (by rw [hfollows.id, hstatus]; exact id) (h.events e he hname)
  · exact fun x hx => found (by rw [hfollows.id, hstatus]; exact id) (h.owed x hx)

theorem leave (h : Mirrors w) (n : Nat) (hp : p ∈ w.store.payments) (hid : q.id = p.id) (hlink : q.payLinkID = p.payLinkID)
    (hseq : p.lastEventSeq ≤ q.lastEventSeq) (hawaiting : p.status = .awaitingPayment) (hterminal : isTerminal q.status)
    (hfinal : ∃ f, w.chain.final? p.payLinkID = some f ∧ q.status = f.state)
    (hs' : s'.payments = (Postgres.update w.store q).payments) :
    Mirrors { w with store := s', owed := (n, q) :: w.owed } := by
  have hfollows : Follows p q := ⟨hid, hlink, hseq, fun ht => by rw [hawaiting] at ht; nomatch ht⟩
  have hmem : ∀ x, x ∈ s'.payments ↔ x = q ∨ x ∈ w.store.payments ∧ x ≠ p := fun x => by
    rw [hs', Postgres.mem_update h.keyed hp hfollows]
  have hkeyed := h.keyed.update hp hfollows
  have hnone : (w.outcomes p.id).length + (w.owes p.id).length = 0 := by
    rw [h.count p hp, hawaiting]
    rfl
  have hother : ∀ x ∈ w.store.payments, x ≠ p → ¬ q.id = x.id := by
    intro x hx hne heq
    exact hne (h.keyed.eq_of_id hx hp (heq.symm.trans hid))
  refine ⟨⟨hs' ▸ hkeyed.ids, hs' ▸ hkeyed.payLinks⟩, ?_, ?_, ?_, ?_, ?_⟩
  · intro x hx
    rcases (hmem x).mp hx with rfl | ⟨hx, -⟩
    · rw [hlink]
      exact h.normalised p hp
    · exact h.normalised x hx
  · intro x hx
    rcases (hmem x).mp hx with rfl | ⟨hx, -⟩
    · rw [hlink]
      exact .inr hfinal
    · exact h.status x hx
  · intro x hx
    change (w.outcomes x.id).length + (((n, q) :: w.owed).filter fun y => decide (y.2.id = x.id)).length = _
    rcases (hmem x).mp hx with rfl | ⟨hx, hne⟩
    · rw [List.filter_cons_of_pos (by simp), List.length_cons, if_pos hterminal]
      rw [← hid] at hnone
      change (w.outcomes x.id).length + ((w.owes x.id).length + 1) = 1
      omega
    · rw [List.filter_cons_of_neg (by simpa using hother x hx hne)]
      exact h.count x hx
  · intro e he hname
    obtain ⟨x, hx, hxid, hevent⟩ := h.events e he hname
    have hxp : x ≠ p := by
      rintro rfl
      rw [hawaiting] at hevent
      nomatch hevent
    exact ⟨x, (hmem x).mpr (.inr ⟨hx, hxp⟩), hxid, hevent⟩
  · intro y hy
    rcases List.mem_cons.mp hy with rfl | hy
    · exact ⟨q, (hmem q).mpr (.inl rfl), rfl, rfl⟩
    · obtain ⟨x, hx, hxid, hstatus⟩ := h.owed y hy
      -- nothing was owed for `p`
      have hxp : x ≠ p := by
        rintro rfl
        have hy' : y ∈ w.owes x.id := List.mem_filter.mpr ⟨hy, by simp [hxid]⟩
        have := List.length_pos_of_mem hy'
        omega
      exact ⟨x, (hmem x).mpr (.inr ⟨hx, hxp⟩), hxid, hstatus⟩
end

theorem publish_other (h : Mirrors w) {n : Nat} {name : String} {p : Payment} (hclear : w.owedBy n = [])
    (hname : name ∉ outcomeNames) :
    Mirrors { w with published := w.published ++ [(name, p)], owed := w.owed.filter fun x => x.1 ≠ n } := by
  have howed : (w.owed.filter fun x => decide (x.1 ≠ n)) = w.owed := by
    rw [List.filter_eq_self]
    intro x hx
    have hnot := List.filter_eq_nil_iff.mp hclear x hx
    simpa using hnot
  rw [howed]
  refine ⟨h.keyed, h.normalised, h.status, fun q hq => ?_, fun e he hname' => ?_, h.owed⟩
  · change ((w.published ++ [(name, p)]).filter _).length + (w.owes q.id).length = _
    rw [List.filter_append, List.filter_cons_of_neg (by simp [hname]), List.filter_nil, List.append_nil]
    exact h.count q hq
  · rcases List.mem_append.mp he with he | he
    · exact h.events e he hname'
    · rw [List.mem_singleton.mp he] at hname'
      exact absurd hname' hname

theorem publish (h : Mirrors w) {n : Nat} {name : String} {p : Payment} (hown : w.owedBy n = [(n, p)])
    (hevent : domainEventForState p.status = some name) :
    Mirrors { w with published := w.published ++ [(name, p)], owed := w.owed.filter fun x => x.1 ≠ n } := by
  refine ⟨h.keyed, h.normalised, h.status, fun q hq => ?_, fun e he hname => ?_, fun x hx => ?_⟩
  · -- what is owed for `q`, by `n` and by the others
    have hsplit := List.length_eq_length_filter_add (l := w.owes q.id) fun x => decide (x.1 = n)
    have hmine : ((w.owes q.id).filter fun x => decide (x.1 = n)) = [(n, p)].filter fun x => decide (x.2.id = q.id) := by
      rw [← hown, World.owes, World.owedBy, List.filter_filter, List.filter_filter]
      exact List.filter_congr fun x _ => Bool.and_comm _ _
    have hothers : ((w.owes q.id).filter fun x => !decide (x.1 = n)) =
        (w.owed.filter fun x => decide (x.1 ≠ n)).filter fun x => decide (x.2.id = q.id) := by
      rw [World.owes, List.filter_filter, List.filter_filter]
      exact List.filter_congr fun x _ => by simp [Bool.and_comm]
    have hcount := h.count q hq
    rw [hmine, hothers] at hsplit
    change ((w.published ++ [(name, p)]).filter _).length +
      ((w.owed.filter fun x => decide (x.1 ≠ n)).filter fun x => decide (x.2.id = q.id)).length = _
    rw [List.filter_append, List.length_append]
    change (w.outcomes q.id).length + _ + _ = _
    by_cases hid : p.id = q.id
    · rw [List.filter_cons_of_pos (by simp [mem_outcomeNames hevent, hid])]
      rw [List.filter_cons_of_pos (by simp [hid])] at hsplit
      simp only [List.filter_nil, List.length_singleton] at hsplit ⊢
      omega
    · rw [List.filter_cons_of_neg (by simp [hid])]
      rw [List.filter_cons_of_neg (by simp [hid])] at hsplit
      simp only [List.filter_nil, List.length_nil] at hsplit ⊢
      omega
  · rcases List.mem_append.mp he with he | he
    · exact h.events e he hname
    · rw [List.mem_singleton.mp he]
      have hmem : (n, p) ∈ w.owed := by
        have : (n, p) ∈ w.owedBy n := by rw [hown]; exact List.mem_singleton_self _
        exact (List.mem_filter.mp this).1
      obtain ⟨q, hq, hid, hstatus⟩ := h.owed _ hmem
      exact ⟨q, hq, hid, by rw [hstatus]; exact hevent⟩
  · exact h.owed x (List.mem_filter.mp hx).1
end Mirrors

structure Rely (n : Nat) (w w' : World Tables) : Prop where
  owedBy : w'.owedBy n = w.owedBy n
  follows : ∀ p ∈ w.store.payments, ∃ q ∈ w'.store.payments, Follows p q
  chain : w.chain.Extends w'.chain

theorem Rely.refl (n : Nat) (w : World Tables) : Rely n w w := ⟨rfl, fun p hp => ⟨p, hp, .refl p⟩, fun _ _ h => h⟩

theorem Rely.trans {n : Nat} {w w' w'' : World Tables} (h : Rely n w w') (h' : Rely n w' w'') : Rely n w w'' where
  owedBy := h'.owedBy.trans h.owedBy
  follows p hp := by
    obtain ⟨q, hq, hpq⟩ := h.follows p hp
    obtain ⟨r, hr, hqr⟩ := h'.follows q hq
    exact ⟨r, hr, hpq.trans hqr⟩
  chain id f hf := h'.chain id f (h.chain id f hf)

def contract : Contract Op Request (World Tables) Choice where
  inv := Mirrors
  guard := fun _ _ _ _ _ => True
  rely := Rely
  fresh n w := w.owedBy n = []
  always := fun _ _ _ => True

theorem contract_stable (format : Time → String) : contract.Stable (system format Postgres.store).drift where
  refl := Rely.refl
  trans _ _ _ _ := Rely.trans
  fresh _ _ _ h hrely := hrely.owedBy.trans h
  always _ _ _ _ _ _ := trivial
  drift w x h := by
    refine ⟨h.settle x.payLinkID x.final, fun n => ⟨rfl, fun p hp => ⟨p, hp, .refl p⟩, ?_⟩⟩
    exact fun id f hf => Chain.final?_settle hf x.payLinkID x.final

section
variable {n : Nat} {r : Request} {α : Type}

abbrev Yields (n : Nat) (r : Request) (p : Proc α) (post : α → World Tables → Prop) (w : World Tables) : Prop :=
  Holds (serve Postgres.store) contract n r p post w

theorem yields_tells {i : Op} {post : i.Answer → World Tables → Prop} {w : World Tables}
    (h : ∀ w₁, Rely n w w₁ → ∀ e a w₂, serve Postgres.store n r w₁ i e = some (a, w₂) → w₂ = w₁ ∧ post a w₁) :
    Yields n r (Prog.op i) post w := by
  intro w₁ hrely hinv e _ a w₂ hserve
  obtain ⟨rfl, hpost⟩ := h w₁ hrely e a w₂ hserve
  exact ⟨hinv, fun m _ => .refl m _, trivial, hpost⟩

theorem serveRead_tells {w w' : World Tables} {x : Option Payment} {e : Choice} {a : Except String (Option Payment)}
    (h : serveRead w x e = some (a, w')) : w' = w := by
  unfold serveRead at h
  split at h
  · exact (Prod.mk.inj (Option.some.inj h)).2.symm
  · exact (Prod.mk.inj (Option.some.inj h)).2.symm
  · nomatch h

abbrev Clear (n : Nat) (w : World Tables) : Prop := w.owedBy n = []

theorem yields_getPayLink {id : String} {w : World Tables} (hclear : Clear n w) :
    Yields n r (Call.getPayLink id) (fun _ w => Clear n w) w := by
  refine yields_tells fun w₁ hrely e a w₂ hserve => ⟨?_, hrely.owedBy.trans hclear⟩
  cases e with
  | payLink | failed => exact (Prod.mk.inj (Option.some.inj hserve)).2.symm
  | _ => nomatch hserve

theorem yields_now {w : World Tables} (hclear : Clear n w) : Yields n r Call.now (fun _ w => Clear n w) w := by
  refine yields_tells fun w₁ hrely e a w₂ hserve => ⟨?_, hrely.owedBy.trans hclear⟩
  cases e with
  | time => exact (Prod.mk.inj (Option.some.inj hserve)).2.symm
  | _ => nomatch hserve

theorem yields_newID {w : World Tables} (hclear : Clear n w) : Yields n r Call.newID (fun _ w => Clear n w) w := by
  refine yields_tells fun w₁ hrely e a w₂ hserve => ⟨?_, hrely.owedBy.trans hclear⟩
  cases e with
  | id => exact (Prod.mk.inj (Option.some.inj hserve)).2.symm
  | _ => nomatch hserve

theorem yields_getPayment {id : String} {w : World Tables} (hclear : Clear n w) :
    Yields n r (Call.getPayment id) (fun _ w => Clear n w) w :=
  yields_tells fun _ hrely _ _ _ hserve => ⟨serveRead_tells hserve, hrely.owedBy.trans hclear⟩

theorem yields_getPaymentByPayLink {id : String} {w : World Tables} (hclear : Clear n w) :
    Yields n r (Call.getPaymentByPayLink id) (fun _ w => Clear n w) w :=
  yields_tells fun _ hrely _ _ _ hserve => ⟨serveRead_tells hserve, hrely.owedBy.trans hclear⟩

theorem yields_payLinkStatus {id : String} {w : World Tables} (hclear : Clear n w) : Yields n r (Call.payLinkStatus id)
      (fun a w => Clear n w ∧ ∀ status, a = .ok (some status) → w.chain.says id status) w := by
  refine yields_tells fun w₁ hrely e a w₂ hserve => ?_
  change servePayLinkStatus w₁ id e = some (a, w₂) at hserve
  unfold servePayLinkStatus at hserve
  split at hserve
  · cases hserve
    exact ⟨rfl, hrely.owedBy.trans hclear, nofun⟩
  · split at hserve
    · next hsaid =>
      cases hserve
      refine ⟨rfl, hrely.owedBy.trans hclear, fun status heq => ?_⟩
      obtain rfl := Option.some.inj (Except.ok.inj heq)
      exact hsaid
    · nomatch hserve
  · cases hserve
    exact ⟨rfl, hrely.owedBy.trans hclear, nofun⟩
  · nomatch hserve

theorem yields_nextEvent {w : World Tables} (hclear : Clear n w) : Yields n r Call.nextEvent
      (fun input w => Clear n w ∧ w.chain.says (normalizeHash input.payLinkID) input.chainStatus) w := by
  refine yields_tells fun w₁ hrely e a w₂ hserve => ?_
  change serveNextEvent w₁ e = some (a, w₂) at hserve
  unfold serveNextEvent at hserve
  split at hserve
  · split at hserve
    · next hsaid =>
      cases hserve
      exact ⟨rfl, hrely.owedBy.trans hclear, hsaid⟩
    · nomatch hserve
  · nomatch hserve

theorem yields_createPayment {p : Payment} {w : World Tables} (hclear : Clear n w)
    (hlink : ∃ x, p.payLinkID = normalizeHash x) (hstatus : p.status = .awaitingPayment) :
    Yields n r (Call.createPayment p) (fun _ w => Clear n w) w := by
  intro w₁ hrely hinv e _ a w₂ hserve
  have hclear₁ : Clear n w₁ := hrely.owedBy.trans hclear
  change serveCreate Postgres.store w₁ p e = some (a, w₂) at hserve
  unfold serveCreate at hserve
  split at hserve
  · split at hserve
    · nomatch hserve
    · split at hserve
      · cases hserve
        exact ⟨hinv, fun m _ => .refl m _, trivial, hclear₁⟩
      · next s hcreate =>
        cases hserve
        obtain ⟨hnew, rfl⟩ := Postgres.createPayment_eq_some hcreate
        refine ⟨hinv.create hnew hlink hstatus, fun m _ => ⟨rfl, fun q hq => ?_, fun _ _ h => h⟩, trivial, hclear₁⟩
        exact ⟨q, List.mem_append_left _ hq, .refl q⟩
  · cases hserve
    exact ⟨hinv, fun m _ => .refl m _, trivial, hclear₁⟩
  · nomatch hserve

def Owed (n : Nat) (a : Except String Advance) (w : World Tables) : Prop :=
  match a with
  | .ok (.done p true) => w.owedBy n = [(n, p)] ∧ isTerminal p.status
  | _ => Clear n w

theorem update_follows {w : World Tables} {s' : Tables} {p q : Payment} (hinv : Mirrors w) (hp : p ∈ w.store.payments)
    (hfollows : Follows p q) (hs' : s'.payments = (Postgres.update w.store q).payments) :
    ∀ x ∈ w.store.payments, ∃ y ∈ s'.payments, Follows x y := by
  intro x hx
  rw [hs']
  by_cases hxp : x = p
  · exact ⟨q, (Postgres.mem_update hinv.keyed hp hfollows).mpr (.inl rfl), hxp ▸ hfollows⟩
  · exact ⟨x, (Postgres.mem_update hinv.keyed hp hfollows).mpr (.inr ⟨hx, hxp⟩), .refl x⟩

theorem serveAdvance_keeps {payLinkID status : String} {advance : Time → Advance × Tables} {w w' : World Tables}
    {e : Choice} {a : Except String Advance} (hinv : Mirrors w) (hclear : Clear n w) (hsaid : w.chain.says payLinkID status)
    (hadvance : ∀ t, Advances payLinkID (fun cur => project cur status) w.store (advance t).1 (advance t).2)
    (hserve : serveAdvance n w advance e = some (a, w')) : Mirrors w' ∧ (∀ m, m ≠ n → Rely m w w') ∧ Owed n a w' := by
  unfold serveAdvance at hserve
  split at hserve
  · next t =>
    have hadvance := hadvance t
    revert hadvance hserve
    rcases advance t with ⟨b, s'⟩
    intro hserve hadvance
    dsimp only at hserve hadvance
    rcases hadvance with ⟨hsame, hunchanged⟩ | ⟨p, hp, q, changed, rfl, rfl, hs', hid, hlink, hseq, hproject⟩
    · have hw' : w' = { w with store := s' } ∧ a = .ok b := by
        split at hserve
        · next heq => exact absurd (Prod.mk.inj heq).1 (hunchanged _)
        · next heq =>
          obtain ⟨rfl, rfl⟩ := Prod.mk.inj heq
          cases hserve
          exact ⟨rfl, rfl⟩
      obtain ⟨rfl, rfl⟩ := hw'
      refine ⟨?_, fun m _ => ⟨rfl, fun p hp => ⟨p, hsame ▸ hp, .refl p⟩, fun _ _ h => h⟩, ?_⟩
      · exact ⟨⟨hsame ▸ hinv.keyed.ids, hsame ▸ hinv.keyed.payLinks⟩, hsame ▸ hinv.normalised, hsame ▸ hinv.status,
          hsame ▸ hinv.count, hsame ▸ hinv.events, hsame ▸ hinv.owed⟩
      · unfold Owed
        split
        · next heq => exact absurd (Except.ok.inj heq) (hunchanged _)
        · exact hclear
    · cases changed with
      | false =>
        cases hserve
        have hstatus := project_unchanged hproject
        have hfollows : Follows p q := ⟨hid, hlink, hseq, fun _ => hstatus⟩
        exact ⟨hinv.follow hp hfollows hstatus hs', fun m _ => ⟨rfl, update_follows hinv hp hfollows hs', fun _ _ h => h⟩,
          hclear⟩
      | true =>
        cases hserve
        obtain ⟨hawaiting, hterminal, hstatus⟩ := project_changed hproject
        have hfollows : Follows p q := ⟨hid, hlink, hseq, fun ht => by rw [hawaiting] at ht; nomatch ht⟩
        have hfinal := Chain.final_of_says hsaid hstatus hterminal
        refine ⟨hinv.leave n hp hid hlink hseq hawaiting hterminal hfinal hs', fun m hm => ⟨?_, ?_, fun _ _ h => h⟩, ?_⟩
        · exact List.filter_cons_of_neg (by simpa using Ne.symm hm)
        · exact update_follows hinv hp hfollows hs'
        · refine ⟨?_, hterminal⟩
          change ((n, q) :: w.owed).filter _ = _
          rw [List.filter_cons_of_pos (by simp)]
          exact congrArg ((n, q) :: ·) hclear
  · cases hserve
    exact ⟨hinv, fun m _ => .refl m _, hclear⟩
  · nomatch hserve

theorem yields_applyChainEvent_call {ev : EventRef} {status : String} {w : World Tables} (hclear : Clear n w)
    (hsaid : w.chain.says ev.payLinkID status) : Yields n r (Call.applyChainEvent ev status) (fun a w => Owed n a w) w := by
  intro w₁ hrely hinv e _ a w₂ hserve
  obtain ⟨hinv', hothers, howed⟩ := serveAdvance_keeps hinv (hrely.owedBy.trans hclear)
    (Chain.says_of_extends hrely.chain hsaid)
    (fun t => Postgres.applyChainEvent_advances _ ev _ t fun _ _ => project_unchanged) hserve
  exact ⟨hinv', hothers, trivial, howed⟩

theorem yields_reconcile_call {payLinkID status : String} {w : World Tables} (hclear : Clear n w)
    (hsaid : w.chain.says payLinkID status) : Yields n r (Call.reconcile payLinkID status) (fun a w => Owed n a w) w := by
  intro w₁ hrely hinv e _ a w₂ hserve
  obtain ⟨hinv', hothers, howed⟩ := serveAdvance_keeps hinv (hrely.owedBy.trans hclear)
    (Chain.says_of_extends hrely.chain hsaid) (fun t => Postgres.reconcile_advances _ payLinkID _ t) hserve
  exact ⟨hinv', hothers, trivial, howed⟩

theorem yields_publish {name : String} {p : Payment} {w : World Tables}
    (h : ∀ w₁, w₁.owedBy n = w.owedBy n → Mirrors w₁ →
      Mirrors { w₁ with published := w₁.published ++ [(name, p)], owed := w₁.owed.filter fun x => x.1 ≠ n }) :
    Yields n r (Call.publish name p) (fun _ w => Clear n w) w := by
  intro w₁ hrely hinv e _ a w₂ hserve
  change servePublish n w₁ name p e = some (a, w₂) at hserve
  unfold servePublish at hserve
  split at hserve
  · cases hserve
    refine ⟨h w₁ hrely.owedBy hinv, fun m hm => ⟨?_, fun p hp => ⟨p, hp, .refl p⟩, fun _ _ h => h⟩, trivial, ?_⟩
    · simp only [World.owedBy, List.filter_filter]
      refine List.filter_congr fun x _ => ?_
      by_cases hx : x.1 = m <;> simp [hx, hm]
    · refine List.filter_eq_nil_iff.mpr fun x hx => ?_
      simpa using (List.mem_filter.mp hx).2
  · nomatch hserve
end

section
variable {n : Nat} {r : Request}

theorem yields_afterTransition {p : Payment} {w : World Tables} (hown : w.owedBy n = [(n, p)])
    (hterminal : isTerminal p.status) : Yields n r (afterTransition p) (fun _ w => Clear n w) w := by
  obtain ⟨name, hname⟩ := exists_event hterminal
  unfold afterTransition
  rw [hname]
  exact yields_publish fun w₁ howed hinv => hinv.publish (howed.trans hown) hname

theorem yields_reconcile {p : Payment} {w : World Tables} (hclear : Clear n w) :
    Yields n r (reconcile p) (fun _ w => Clear n w) w := by
  unfold reconcile
  split
  · exact hclear
  · refine (yields_payLinkStatus hclear).bind fun a w₁ h => ?_
    obtain ⟨hclear₁, hsaid⟩ := h
    rcases a with m | _ | status
    · exact hclear₁
    · exact hclear₁
    · refine (yields_reconcile_call hclear₁ (hsaid status rfl)).bind fun a w₂ howed => ?_
      rcases a with m | _ | p | ⟨updated, _ | _⟩
      · exact howed
      · exact howed
      · exact howed
      · exact howed
      · exact (yields_afterTransition howed.1 howed.2).bind fun _ w₃ hclear₃ => hclear₃

theorem yields_get {id : String} {w : World Tables} (hclear : Clear n w) : Yields n r (get id) (fun _ w => Clear n w) w := by
  refine (yields_getPayment hclear).bind fun a w₁ hclear₁ => ?_
  rcases a with m | _ | p
  · exact hclear₁
  · exact hclear₁
  · exact (yields_reconcile hclear₁).bind fun _ w₂ hclear₂ => hclear₂

theorem yields_applyChainEvent {w : World Tables} (hclear : Clear n w) :
    Yields n r applyChainEvent (fun _ w => Clear n w) w := by
  refine (yields_nextEvent hclear).bind fun input w₁ h => ?_
  obtain ⟨hclear₁, hsaid⟩ := h
  dsimp only
  generalize normalizeHash input.payLinkID = plID at hsaid
  refine (yields_applyChainEvent_call hclear₁ hsaid).bind fun a w₂ howed => ?_
  rcases a with m | _ | p | ⟨updated, _ | _⟩
  · exact howed
  · exact howed
  · exact howed
  · exact howed
  · exact (yields_afterTransition howed.1 howed.2).bind fun _ w₃ hclear₃ => hclear₃

theorem yields_record {plID rail : String} {w : World Tables} (hlink : ∃ h, plID = normalizeHash h) (hclear : Clear n w) :
    Yields n r (record plID rail) (fun _ w => Clear n w) w := by
  refine (yields_now hclear).bind fun now w₁ hclear₁ => ?_
  refine (yields_newID hclear₁).bind fun id w₂ hclear₂ => ?_
  refine (yields_createPayment hclear₂ hlink rfl).bind fun a w₃ hclear₃ => ?_
  rcases a with m | _ | _
  · exact hclear₃
  · exact (yields_getPaymentByPayLink hclear₃).bind fun _ w₄ hclear₄ => hclear₄
  · refine Holds.bind (yields_publish fun w₄ howed hinv => ?_) fun _ w₅ hclear₅ => hclear₅
    exact hinv.publish_other (howed.trans hclear₃) (by decide)

theorem yields_initiate (format : Time → String) {payLinkID rail : String} {w : World Tables} (hclear : Clear n w) :
    Yields n r (initiate format payLinkID rail) (fun _ w => Clear n w) w := by
  have hlink : ∃ h, normalizeHash payLinkID = normalizeHash h := ⟨payLinkID, rfl⟩
  unfold initiate
  dsimp only
  generalize normalizeHash payLinkID = plID at hlink
  split
  · exact hclear
  · split
    · exact hclear
    · refine (yields_getPayLink hclear).bind fun a w₁ hclear₁ => ?_
      rcases a with m | _ | rec
      · exact hclear₁
      · exact hclear₁
      · dsimp only
        split
        · exact hclear₁
        · cases rec.expiry with
          | none => exact yields_record hlink hclear₁
          | some expiry =>
            refine (yields_now hclear₁).bind fun now w₂ hclear₂ => ?_
            split
            · exact hclear₂
            · exact yields_record hlink hclear₂

theorem yields_handle (format : Time → String) {w : World Tables} (hclear : Clear n w) :
    Yields n r (handle format r) (fun _ w => Clear n w) w := by
  cases r with
  | initiate payLinkID rail => exact Holds.bind (yields_initiate format hclear) fun _ _ h => h
  | applyChainEvent => exact Holds.bind (yields_applyChainEvent hclear) fun _ _ h => h
  | get id => exact Holds.bind (yields_get hclear) fun _ _ h => h
end

section
variable (format : Time → String)

abbrev SoundOn (c : Config Op Op.Answer Request (World Tables) Response) : Prop :=
  Sound (system format Postgres.store) contract (fun n _ _ w => Clear n w) c

variable {format}

variable {c : Config Op Op.Answer Request (World Tables) Response}

theorem SoundOn.step (h : SoundOn format c) (m : Move Request Choice Settlement) : SoundOn format ((system format Postgres.store).step c m) := by
  refine Sound.step (contract_stable format) ?_ ?_ h ?_
  · exact fun n r a w w' hclear hrely => hrely.owedBy.trans hclear
  · exact fun n r w _ hfresh => ⟨trivial, yields_handle format hfresh⟩
  · cases m <;> simp [Meets, contract]

theorem SoundOn.follows_step (h : SoundOn format c) (m : Move Request Choice Settlement) :
    ∀ p ∈ c.shared.store.payments, ∃ q ∈ ((system format Postgres.store).step c m).shared.store.payments, Follows p q := by
  have hm : Meets contract c m := by cases m <;> simp [Meets, contract]
  exact (Sound.rely_step (contract_stable format) h hm (Nat.le_refl _)).follows

theorem SoundOn.run (h : SoundOn format c) (moves : List (Move Request Choice Settlement)) :
    SoundOn format (moves.foldl (system format Postgres.store).step c) ∧
    ∀ p ∈ c.shared.store.payments,
      ∃ q ∈ (moves.foldl (system format Postgres.store).step c).shared.store.payments, Follows p q := by
  induction moves generalizing c with
  | nil => exact ⟨h, fun p hp => ⟨p, hp, .refl p⟩⟩
  | cons m moves ih =>
    obtain ⟨hsound, hfollows⟩ := ih (h.step m)
    refine ⟨hsound, fun p hp => ?_⟩
    obtain ⟨q, hq, hpq⟩ := h.follows_step m p hp
    obtain ⟨x, hx, hqx⟩ := hfollows q hq
    exact ⟨x, hx, hpq.trans hqx⟩

theorem soundOn_init : SoundOn format { shared := { store := Postgres.store.empty } } :=
  ⟨Mirrors.empty, fun _ _ => rfl, fun n r p hn => by simp at hn⟩

theorem soundOn_exec (moves : List (Move Request Choice Settlement)) :
    SoundOn format ((system format Postgres.store).exec { store := Postgres.store.empty } moves) :=
  (soundOn_init.run moves).1

theorem SoundOn.owed_eq_nil (h : SoundOn format c) (hreturned : ∀ n < c.procs.length, (c.returned? n).isSome) : c.shared.owed = [] := by
  have hclear : ∀ n, Clear n c.shared := by
    intro n
    by_cases hn : n < c.procs.length
    · obtain ⟨⟨r, a⟩, ha⟩ := Option.isSome_iff_exists.mp (hreturned n hn)
      exact (h.procs n r _ (Config.returned?_eq_some ha)).2
    · exact h.fresh n (Nat.not_lt.mp hn)
  refine List.eq_nil_iff_forall_not_mem.mpr fun x hx => ?_
  have hmem : x ∈ c.shared.owedBy x.1 := List.mem_filter.mpr ⟨hx, by simp⟩
  rw [hclear x.1] at hmem
  nomatch hmem
end

structure MirrorsChain {σ : Type} (S : Store σ) (c c' : Config Op Op.Answer Request (World σ) Response) : Prop where
  unique : ∀ id id' p p', S.getPayment c.shared.store id = some p → S.getPayment c.shared.store id' = some p' →
    p.payLinkID = p'.payLinkID → id = id' ∧ p = p'
  normalised : ∀ id p, S.getPayment c.shared.store id = some p → ∃ h, p.payLinkID = normalizeHash h
  status : ∀ id p, S.getPayment c.shared.store id = some p →
    p.status = .awaitingPayment ∨ ∃ f, c.shared.chain.final? p.payLinkID = some f ∧ p.status = f.state
  later : ∀ id p, S.getPayment c.shared.store id = some p → ∃ p', S.getPayment c'.shared.store id = some p' ∧
    p'.payLinkID = p.payLinkID ∧ p.lastEventSeq ≤ p'.lastEventSeq ∧ (isTerminal p.status → p'.status = p.status)
  outcome : ∀ id p, S.getPayment c.shared.store id = some p → (c.shared.outcomes id).length ≤ 1 ∧
    ∀ e ∈ c.shared.outcomes id, domainEventForState p.status = some e.1
  noPayment : ∀ id, S.getPayment c.shared.store id = none → c.shared.outcomes id = []
  announced : (∀ n < c.procs.length, (c.returned? n).isSome) → ∀ id p, S.getPayment c.shared.store id = some p →
    isTerminal p.status → (c.shared.outcomes id).length = 1

theorem SoundOn.mirrorsChain {format : Time → String} {c : Config Op Op.Answer Request (World Tables) Response}
    (h : SoundOn format c) (moves : List (Move Request Choice Settlement)) :
    MirrorsChain Postgres.store c (moves.foldl (system format Postgres.store).step c) := by
  have hinv : Mirrors c.shared := h.inv
  have hrow : ∀ {id p}, Postgres.store.getPayment c.shared.store id = some p → p ∈ c.shared.store.payments ∧ p.id = id :=
    fun hp => hinv.keyed.getPayment_iff.mp hp
  have houtcome : ∀ {id e}, e ∈ c.shared.outcomes id → e ∈ c.shared.published ∧ e.1 ∈ outcomeNames ∧ e.2.id = id := by
    intro id e he
    obtain ⟨he, hname⟩ := List.mem_filter.mp he
    exact ⟨he, of_decide_eq_true hname⟩
  refine ⟨?_, ?_, ?_, ?_, ?_, ?_, ?_⟩
  · intro id id' p p' hp hp' hlink
    obtain ⟨hmem, rfl⟩ := hrow hp
    obtain ⟨hmem', rfl⟩ := hrow hp'
    obtain rfl := hinv.keyed.eq_of_payLinkID hmem hmem' hlink
    exact ⟨rfl, rfl⟩
  · exact fun id p hp => hinv.normalised p (hrow hp).1
  · exact fun id p hp => hinv.status p (hrow hp).1
  · intro id p hp
    obtain ⟨hmem, rfl⟩ := hrow hp
    obtain ⟨hsound, hfollows⟩ := h.run moves
    obtain ⟨q, hq, hpq⟩ := hfollows p hmem
    exact ⟨q, (Mirrors.keyed hsound.inv).getPayment_iff.mpr ⟨hq, hpq.id⟩, hpq.payLinkID, hpq.seq, hpq.terminal⟩
  · intro id p hp
    obtain ⟨hmem, rfl⟩ := hrow hp
    have hcount := hinv.count p hmem
    refine ⟨by split at hcount <;> omega, fun e he => ?_⟩
    obtain ⟨he, hname, hid⟩ := houtcome he
    obtain ⟨q, hq, hqid, hevent⟩ := hinv.events e he hname
    rwa [hinv.keyed.eq_of_id hmem hq (hid.symm.trans hqid.symm)]
  · intro id hnone
    refine List.eq_nil_iff_forall_not_mem.mpr fun e he => ?_
    obtain ⟨he, hname, hid⟩ := houtcome he
    obtain ⟨q, hq, hqid, -⟩ := hinv.events e he hname
    have hsome : Postgres.store.getPayment c.shared.store id = some q :=
      hinv.keyed.getPayment_iff.mpr ⟨hq, hqid.trans hid⟩
    rw [hnone] at hsome
    nomatch hsome
  · intro hreturned id p hp hterminal
    obtain ⟨hmem, rfl⟩ := hrow hp
    have hcount := hinv.count p hmem
    rw [if_pos hterminal, World.owes, h.owed_eq_nil hreturned] at hcount
    exact hcount

theorem MirrorsChain.memory {c c' : Config Op Op.Answer Request (World Memory.Maps) Response}
    {d d' : Config Op Op.Answer Request (World Tables) Response} (hshared : Memory.SameWorld c.shared d.shared)
    (hprocs : c.procs = d.procs) (hshared' : Memory.SameWorld c'.shared d'.shared) (h : MirrorsChain Postgres.store d d') :
    MirrorsChain Memory.store c c' := by
  have hget : ∀ id, Memory.store.getPayment c.shared.store id = Postgres.store.getPayment d.shared.store id :=
    fun id => hshared.store.getPayment id
  have hget' : ∀ id, Memory.store.getPayment c'.shared.store id = Postgres.store.getPayment d'.shared.store id :=
    fun id => hshared'.store.getPayment id
  have houtcomes : ∀ id, c.shared.outcomes id = d.shared.outcomes id := fun id => by
    rw [World.outcomes, World.outcomes, hshared.published]
  have hreturned : ∀ n, c.returned? n = d.returned? n := fun n => by
    rw [Config.returned?, Config.returned?, hprocs]
  constructor <;> simp only [hget, hget', houtcomes, hreturned, hprocs, hshared.chain]
  · exact h.unique
  · exact h.normalised
  · exact h.status
  · exact h.later
  · exact h.outcome
  · exact h.noPayment
  · exact h.announced

end LinkMint.Orchestrator
