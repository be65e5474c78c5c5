import LinkMint.EventBus.Consumer

/-!
# At least once

Both consumers commit the clean prefix of a batch, which is right if everything before the batch
has been handled. It has not where a record is polled past a failure; `InOrder` excludes that.
-/

namespace LinkMint.EventBus

open LinkMint.Lib

variable (D : Deployment)

def Record.Decodable (r : Record) : Prop := (D.decode r.value).isSome = true

structure Below (w : World) (tp : TopicPartition) (o : Nat) : Prop where
  le_next : o ≤ w.next tp
  handled : ∀ r ∈ w.log tp, r.offset < o → r.Decodable D → (tp, r.offset) ∈ w.handled

structure Grows (w w' : World) : Prop where
  log : ∀ tp, ∀ r, r ∈ w'.log tp → r ∈ w.log tp ∨ w.next tp ≤ r.offset
  kept : ∀ tp, ∀ r ∈ w.log tp, r ∈ w'.log tp
  next : ∀ tp, w.next tp ≤ w'.next tp
  handled : w.handled ⊆ w'.handled

theorem Grows.refl (w : World) : Grows w w where
  log _ _ h := .inl h
  kept _ _ h := h
  next _ := Nat.le_refl _
  handled _ h := h

theorem Grows.trans {w w' w'' : World} (h : Grows w w') (h' : Grows w' w'') : Grows w w'' where
  log tp r hr := by
    rcases h'.log tp r hr with hr | hr
    · exact h.log tp r hr
    · exact .inr (Nat.le_trans (h.next tp) hr)
  kept tp r hr := h'.kept tp r (h.kept tp r hr)
  next tp := Nat.le_trans (h.next tp) (h'.next tp)
  handled _ hx := h'.handled (h.handled hx)

instance : Std.Refl Grows := ⟨Grows.refl⟩

instance : IsTrans World Grows := ⟨fun _ _ _ => Grows.trans⟩

variable {D} {w w' : World} {n : Nat} {tp : TopicPartition}

namespace Below
theorem zero : Below D w tp 0 where
  le_next := Nat.zero_le _
  handled _ _ h := absurd h (Nat.not_lt_zero _)

theorem mono {o : Nat} (h : Below D w tp o) (hgrows : Grows w w') : Below D w' tp o where
  le_next := Nat.le_trans h.le_next (hgrows.next tp)
  handled r hr ho hdec := by
    rcases hgrows.log tp r hr with hr | hr
    · exact hgrows.handled (h.handled r hr ho hdec)
    · exact absurd (Nat.le_trans h.le_next hr) (Nat.not_le_of_lt ho)

theorem le {o o' : Nat} (h : Below D w tp o) (hle : o' ≤ o) : Below D w tp o' where
  le_next := Nat.le_trans hle h.le_next
  handled r hr ho := h.handled r hr (Nat.lt_of_lt_of_le ho hle)
end Below

variable (D) in
structure Kept (w : World) : Prop where
  sorted : ∀ tp, (w.log tp).Pairwise fun r r' => r.offset < r'.offset
  bound : ∀ tp, ∀ r ∈ w.log tp, r.tp = tp ∧ r.offset < w.next tp
  committed : ∀ tp o, w.committed tp = some o → Below D w tp o

theorem Kept.init : Kept D {} where
  sorted _ := List.Pairwise.nil
  bound _ _ hr := by cases hr
  committed _ _ ho := by cases ho

variable (D) in
structure Rely (n : Nat) (w w' : World) : Prop where
  grows : Grows w w'
  position : ∀ tp x, w'.position n tp = some x → w'.failed n tp = false →
    Below D w' tp x ∨ (w.position n tp = some x ∧ w.failed n tp = false)

theorem Rely.refl (n : Nat) (w : World) : Rely D n w w := ⟨Grows.refl w, fun _ _ hx hf => .inr ⟨hx, hf⟩⟩

theorem Rely.trans {w'' : World} (h : Rely D n w w') (h' : Rely D n w' w'') : Rely D n w w'' where
  grows := h.grows.trans h'.grows
  position tp x hx hf := by
    rcases h'.position tp x hx hf with hbelow | ⟨hx, hf⟩
    · exact .inl hbelow
    · exact (h.position tp x hx hf).imp_left fun hbelow => hbelow.mono h'.grows

theorem Rely.other {m : Nat} (grows : Grows w w') (position : w'.position m = w.position m)
    (failed : w'.failed m = w.failed m) : Rely D m w w' where
  grows := grows
  position tp x hx hf := by
    rw [position] at hx
    rw [failed] at hf
    exact .inr ⟨hx, hf⟩

variable (D) in
def Settled (n : Nat) (w : World) (pending : List (TopicPartition × Nat)) : Prop :=
  ∀ tp x, w.position n tp = some x → w.failed n tp = false → Below D w tp x ∨ (tp, x) ∈ pending

theorem Settled.stable {pending : List (TopicPartition × Nat)} (h : Settled D n w pending)
    (hrely : Rely D n w w') : Settled D n w' pending := by
  intro tp x hx hf
  rcases hrely.position tp x hx hf with hbelow | ⟨hx, hf⟩
  · exact .inl hbelow
  · exact (h tp x hx hf).imp_left fun hbelow => hbelow.mono hrely.grows

def InOrder (n : Nat) (w : World) (c : Choice) : Prop :=
  match c with
  | .fetch counts => ∀ tc ∈ counts, w.batch n tc.1 tc.2 ≠ [] → w.failed n tc.1 = false
  | _ => True

instance (n : Nat) (w : World) (c : Choice) : Decidable (InOrder n w c) :=
  match c with
  | .fetch counts =>
    inferInstanceAs (Decidable (∀ tc ∈ counts, w.batch n tc.1 tc.2 ≠ [] → w.failed n tc.1 = false))
  | .stop | .handled _ | .commit _ _ => .isTrue trivial

variable (D) in
def contract : Contract Op Request World Choice where
  inv := Kept D
  guard n _ w _ c := InOrder n w c
  rely := Rely D
  fresh n w := Settled D n w []
  always _ _ _ := True

theorem Kept.reset (h : Kept D w) (n : Nat) (tp : TopicPartition) (x : Option Nat) : Kept D (w.reset n tp x) where
  sorted := h.sorted
  bound := h.bound
  committed tp o ho := by
    have hbelow := h.committed tp o ho
    exact ⟨hbelow.le_next, hbelow.handled⟩

theorem rely_reset (m : Nat) {x : Option Nat} (hx : ∀ y, x = some y → Below D w tp y) : Rely D m w (w.reset n tp x) := by
  have hgrows : Grows w (w.reset n tp x) := ⟨fun _ _ h => .inl h, fun _ _ h => h, fun _ => Nat.le_refl _, fun _ h => h⟩
  by_cases hm : m = n
  · subst hm
    refine ⟨hgrows, fun tp' y hy hf => ?_⟩
    simp only [World.reset, Function.update_self] at hy hf
    by_cases htp : tp' = tp
    · subst htp
      rw [Function.update_self] at hy
      exact .inl ((hx y hy).mono hgrows)
    · rw [Function.update_of_ne htp] at hy hf
      exact .inr ⟨hy, hf⟩
  · refine Rely.other hgrows ?_ ?_
    · simp only [World.reset, Function.update_of_ne hm]
    · simp only [World.reset, Function.update_of_ne hm]

theorem grows_produce (tp : TopicPartition) (skip : Nat) (value : Bytes) :
    Grows w (drift w (.produce tp skip value)) where
  log tp' r hr := by
    by_cases htp : tp' = tp
    · subst htp
      simp only [drift, Function.update_self, List.mem_append, List.mem_singleton] at hr
      rcases hr with hr | rfl
      · exact .inl hr
      · exact .inr (Nat.le_add_right _ _)
    · simp only [drift, Function.update_of_ne htp] at hr
      exact .inl hr
  kept tp' r hr := by
    by_cases htp : tp' = tp
    · subst htp
      simp only [drift, Function.update_self]
      exact List.mem_append_left _ hr
    · simpa only [drift, Function.update_of_ne htp] using hr
  next tp' := by
    by_cases htp : tp' = tp
    · subst htp
      simp only [drift, Function.update_self]
      omega
    · simp only [drift, Function.update_of_ne htp, Nat.le_refl]
  handled _ h := h

theorem Kept.produce (h : Kept D w) (tp : TopicPartition) (skip : Nat) (value : Bytes) :
    Kept D (drift w (.produce tp skip value)) where
  sorted tp' := by
    by_cases htp : tp' = tp
    · subst htp
      simp only [drift, Function.update_self]
      refine List.pairwise_append.mpr ⟨h.sorted tp', List.pairwise_singleton _ _, fun r hr r' hr' => ?_⟩
      rw [List.mem_singleton] at hr'
      rw [hr']
      exact Nat.lt_of_lt_of_le (h.bound tp' r hr).2 (Nat.le_add_right _ _)
    · simpa only [drift, Function.update_of_ne htp] using h.sorted tp'
  bound tp' r hr := by
    by_cases htp : tp' = tp
    · subst htp
      simp only [drift, Function.update_self, List.mem_append, List.mem_singleton] at hr ⊢
      rcases hr with hr | rfl
      · have hlt := (h.bound tp' r hr).2
        exact ⟨(h.bound tp' r hr).1, by omega⟩
      · exact ⟨rfl, Nat.lt_succ_self _⟩
    · simp only [drift, Function.update_of_ne htp] at hr ⊢
      exact h.bound tp' r hr
  committed tp' o ho := (h.committed tp' o ho).mono (grows_produce tp skip value)

theorem contract_stable : (contract D).Stable drift where
  refl := Rely.refl
  trans _ _ _ _ := Rely.trans
  fresh _ _ _ h hrely := h.stable hrely
  always _ _ _ _ _ _ := trivial
  drift w d hw := by
    cases d with
    | produce tp skip value =>
      exact ⟨hw.produce tp skip value, fun n => Rely.other (grows_produce tp skip value) rfl rfl⟩
    | assign n tp =>
      refine ⟨hw.reset n tp _, fun m => rely_reset m fun y hy => ?_⟩
      cases hy
      cases hc : w.committed tp with
      | none => exact Below.zero
      | some o => exact hw.committed tp o hc
    | revoke n tp => exact ⟨hw.reset n tp _, fun m => rely_reset m fun y hy => nomatch hy⟩

variable (D) in
structure Ready (w : World) (tp : TopicPartition) (recs : List Record) (x : Nat) : Prop where
  le_next : x ≤ w.next tp
  sorted : recs.Pairwise fun r r' => r.offset < r'.offset
  clean : ∃ o, Below D w tp o ∧ ∀ r, r ∈ recs ↔ r ∈ w.log tp ∧ o ≤ r.offset ∧ r.offset < x

namespace Ready
variable {recs : List Record} {r : Record} {x : Nat}

theorem stable (h : Ready D w tp recs x) (hgrows : Grows w w') : Ready D w' tp recs x := by
  obtain ⟨o, hbelow, hmem⟩ := h.clean
  refine ⟨Nat.le_trans h.le_next (hgrows.next tp), h.sorted, o, hbelow.mono hgrows, fun r => ?_⟩
  rw [hmem]
  constructor
  · rintro ⟨hr, hrest⟩
    exact ⟨hgrows.kept tp r hr, hrest⟩
  · rintro ⟨hr, hle, hlt⟩
    rcases hgrows.log tp r hr with hr | hr
    · exact ⟨hr, hle, hlt⟩
    · exact absurd (Nat.le_trans h.le_next hr) (Nat.not_le_of_lt hlt)

theorem below_of_nil (h : Ready D w tp [] x) : Below D w tp x := by
  obtain ⟨o, hbelow, hmem⟩ := h.clean
  refine ⟨h.le_next, fun r hr hlt hdec => ?_⟩
  by_cases ho : r.offset < o
  · exact hbelow.handled r hr ho hdec
  · exact nomatch (hmem r).mpr ⟨hr, Nat.not_lt.mp ho, hlt⟩

theorem below_head (h : Ready D w tp (r :: recs) x) : Below D w tp r.offset := by
  obtain ⟨o, hbelow, hmem⟩ := h.clean
  obtain ⟨-, hle, hlt⟩ := (hmem r).mp List.mem_cons_self
  refine ⟨Nat.le_trans (Nat.le_of_lt hlt) h.le_next, fun r' hr' hlt' hdec => ?_⟩
  by_cases ho : r'.offset < o
  · exact hbelow.handled r' hr' ho hdec
  · have hbatch := (hmem r').mpr ⟨hr', Nat.not_lt.mp ho, Nat.lt_trans hlt' hlt⟩
    rcases List.mem_cons.mp hbatch with rfl | hbatch
    · exact absurd hlt' (Nat.lt_irrefl _)
    · exact absurd hlt' (Nat.lt_asymm ((List.pairwise_cons.mp h.sorted).1 r' hbatch))

theorem below_succ (h : Ready D w tp (r :: recs) x) (hdone : r.Decodable D → (tp, r.offset) ∈ w.handled) :
    Below D w tp (r.offset + 1) := by
  have hhead := h.below_head
  obtain ⟨o, hbelow, hmem⟩ := h.clean
  obtain ⟨-, hle, hlt⟩ := (hmem r).mp List.mem_cons_self
  refine ⟨Nat.le_trans hlt h.le_next, fun r' hr' hlt' hdec => ?_⟩
  rcases Nat.lt_or_eq_of_le (Nat.le_of_lt_succ hlt') with hlt' | heq
  · exact hhead.handled r' hr' hlt' hdec
  · -- it is the record itself: offsets of a batch are distinct
    have hbatch := (hmem r').mpr ⟨hr', heq ▸ hle, heq ▸ hlt⟩
    rcases List.mem_cons.mp hbatch with rfl | hbatch
    · exact hdone hdec
    · have hgt := (List.pairwise_cons.mp h.sorted).1 r' hbatch
      omega

theorem tail (h : Ready D w tp (r :: recs) x) (hdone : r.Decodable D → (tp, r.offset) ∈ w.handled) : Ready D w tp recs x := by
  refine ⟨h.le_next, (List.pairwise_cons.mp h.sorted).2, r.offset + 1, h.below_succ hdone, fun r' => ?_⟩
  obtain ⟨o, -, hmem⟩ := h.clean
  obtain ⟨-, hle, -⟩ := (hmem r).mp List.mem_cons_self
  constructor
  · intro hr'
    obtain ⟨hlog, -, hlt⟩ := (hmem r').mp (List.mem_cons_of_mem _ hr')
    exact ⟨hlog, (List.pairwise_cons.mp h.sorted).1 r' hr', hlt⟩
  · rintro ⟨hlog, hgt, hlt⟩
    rcases List.mem_cons.mp ((hmem r').mpr ⟨hlog, by omega, hlt⟩) with rfl | hr'
    · omega
    · exact hr'
end Ready

section Batch

variable {q : Request} {pending : List (TopicPartition × Nat)}

theorem grows_handle (r : Record) : Grows w (w.handle r) :=
  ⟨fun _ _ h => .inl h, fun _ _ h => h, fun _ => Nat.le_refl _, List.subset_append_left _ _⟩

theorem fail_cases (w : World) (n : Nat) (r : Record) :
    (w.fail n r = w ∧ ∀ x, w.position n r.tp = some x → x ≤ r.offset) ∨
    w.fail n r = { w with failed := Function.update w.failed n (Function.update (w.failed n) r.tp true) } := by
  unfold World.fail
  split
  · exact .inr rfl
  · next hpast =>
    refine .inl ⟨rfl, fun x hx => ?_⟩
    rw [hx, Option.any_some, decide_eq_true_eq, Nat.not_lt] at hpast
    exact hpast

theorem grows_fail (w : World) (n : Nat) (r : Record) : Grows w (w.fail n r) := by
  rcases fail_cases w n r with ⟨heq, -⟩ | heq
  · rw [heq]
    exact Grows.refl w
  · rw [heq]
    exact ⟨fun _ _ h => .inl h, fun _ _ h => h, fun _ => Nat.le_refl _, fun _ h => h⟩

theorem Kept.handle (h : Kept D w) (r : Record) : Kept D (w.handle r) :=
  ⟨h.sorted, h.bound, fun tp o ho => (h.committed tp o ho).mono (grows_handle r)⟩

theorem Kept.fail (h : Kept D w) (n : Nat) (r : Record) : Kept D (w.fail n r) := by
  have hgrows := grows_fail w n r
  rcases fail_cases w n r with ⟨heq, -⟩ | heq
  · rw [heq]
    exact h
  · rw [heq] at hgrows ⊢
    exact ⟨h.sorted, h.bound, fun tp o ho => (h.committed tp o ho).mono hgrows⟩

theorem rely_fail {m : Nat} (hm : m ≠ n) (r : Record) : Rely D m w (w.fail n r) := by
  rcases fail_cases w n r with ⟨heq, -⟩ | heq
  · rw [heq]
    exact Rely.refl m w
  · refine Rely.other (grows_fail w n r) ?_ ?_
    · rw [heq]
    · rw [heq]
      exact Function.update_of_ne hm _ _

theorem mem_of_mem_cons_ne {tp tp' : TopicPartition} {x y : Nat} (h : (tp, y) ∈ (tp', x) :: pending)
    (hne : tp ≠ tp') : (tp, y) ∈ pending := by
  rcases List.mem_cons.mp h with heq | hmem
  · exact absurd (Prod.mk.inj heq).1 hne
  · exact hmem

theorem Settled.fail {r : Record} {x : Nat} (h : Settled D n w ((r.tp, x) :: pending))
    (hbelow : Below D w r.tp r.offset) : Settled D n (w.fail n r) pending := by
  intro tp y hy hf
  have hgrows := grows_fail w n r
  by_cases htp : tp = r.tp
  · subst htp
    rcases fail_cases w n r with ⟨heq, hreset⟩ | heq
    · rw [heq] at hy ⊢
      exact .inl (hbelow.le (hreset y hy))
    · rw [heq] at hf
      simp only [Function.update_self] at hf
      cases hf
  · have hsame : (w.fail n r).position n tp = w.position n tp ∧ (w.fail n r).failed n tp = w.failed n tp := by
      rcases fail_cases w n r with ⟨heq, -⟩ | heq
      · rw [heq]
        exact ⟨rfl, rfl⟩
      · rw [heq]
        simp only [Function.update_self, Function.update_of_ne htp, and_self]
    rw [hsame.1] at hy
    rw [hsame.2] at hf
    rcases h tp y hy hf with hb | hmem
    · exact .inl (hb.mono hgrows)
    · exact .inr (mem_of_mem_cons_ne hmem htp)

theorem ensures_handle {r : Record} {recs : List Record} {x : Nat} (name : String) (payload : Bytes)
    (hr : r.tp = tp) (hready : Ready D w tp (r :: recs) x) (hsettled : Settled D n w ((tp, x) :: pending)) :
    Ensures serve (contract D) n q Grows (Call.handle r name payload) w fun a w => match a with
      | .ok _ => Ready D w tp recs x ∧ Below D w tp (r.offset + 1) ∧ Settled D n w ((tp, x) :: pending)
      | .error _ => Settled D n w pending := by
  subst hr
  intro w₁ hrely hw c _ a w₂ hserve
  have hready₁ := hready.stable hrely.grows
  have hsettled₁ := hsettled.stable hrely
  cases c with
  | handled result =>
    cases result with
    | ok u =>
      cases hserve
      have hgrows := grows_handle (w := w₁) r
      have hdone : r.Decodable D → (r.tp, r.offset) ∈ (w₁.handle r).handled :=
        fun _ => List.mem_append_right _ List.mem_cons_self
      have hready₂ := hready₁.stable hgrows
      exact ⟨hw.handle r, fun m _ => Rely.other hgrows rfl rfl, trivial, hrely.grows.trans hgrows, hready₂.tail hdone,
        hready₂.below_succ hdone, hsettled₁.stable (Rely.other hgrows rfl rfl)⟩
    | error m =>
      cases hserve
      exact ⟨hw.fail n r, fun m hm => rely_fail hm r, trivial, hrely.grows.trans (grows_fail w₁ n r),
        hsettled₁.fail hready₁.below_head⟩
  | fetch counts => cases hserve
  | stop => cases hserve
  | commit applied result => cases hserve

variable (D) in
def Clean (w : World) (done : List Record) : Prop := ∀ r ∈ done, Below D w r.tp (r.offset + 1)

theorem Clean.nil : Clean D w [] := fun _ hr => nomatch hr

theorem Clean.stable {done : List Record} (h : Clean D w done) (hgrows : Grows w w') : Clean D w' done :=
  fun r hr => (h r hr).mono hgrows

theorem ensures_cleanPrefix {recs : List Record} {x : Nat} (htp : ∀ r ∈ recs, r.tp = tp)
    (hready : Ready D w tp recs x) (hsettled : Settled D n w ((tp, x) :: pending)) :
    Ensures serve (contract D) n q Grows (cleanPrefix D recs) w fun done w =>
      done ⊆ recs ∧ Clean D w done ∧ Settled D n w pending := by
  induction recs generalizing w with
  | nil =>
    refine Ensures.ret ⟨fun _ h => h, Clean.nil, fun tp' y hy hf => ?_⟩
    rcases hsettled tp' y hy hf with hb | hmem
    · exact .inl hb
    · rcases List.mem_cons.mp hmem with heq | hmem
      · cases heq
        exact .inl hready.below_of_nil
      · exact .inr hmem
  | cons r recs ih =>
    have hr : r.tp = tp := htp r List.mem_cons_self
    have hrest : ∀ r' ∈ recs, r'.tp = tp := fun r' hr' => htp r' (List.mem_cons_of_mem _ hr')
    -- the rest of the loop, once the record is done
    have hnext : ∀ w, Ready D w tp recs x → Below D w tp (r.offset + 1) → Settled D n w ((tp, x) :: pending) →
        Ensures serve (contract D) n q Grows (do return r :: (← cleanPrefix D recs)) w fun done w =>
          done ⊆ r :: recs ∧ Clean D w done ∧ Settled D n w pending := by
      intro w hready hbelow hsettled
      refine (ih hrest hready hsettled).bind fun done w hgrows hmid =>
        Ensures.ret ⟨List.cons_subset_cons r hmid.1, ?_, hmid.2.2⟩
      intro r' hr'
      rcases List.mem_cons.mp hr' with rfl | hr'
      · rw [hr]
        exact hbelow.mono hgrows
      · exact hmid.2.1 r' hr'
    unfold cleanPrefix
    cases hdec : D.decode r.value with
    | none =>
      have hdone : r.Decodable D → (tp, r.offset) ∈ w.handled := by
        intro h
        rw [Record.Decodable, hdec] at h
        cases h
      exact hnext w (hready.tail hdone) (hready.below_succ hdone) hsettled
    | some env =>
      refine (ensures_handle env.name env.payload hr hready hsettled).bind fun a w _ hmid => ?_
      cases a with
      | error m => exact Ensures.ret ⟨List.nil_subset _, Clean.nil, hmid⟩
      | ok u => exact hnext w hmid.1 hmid.2.1 hmid.2.2
end Batch

section Rounds

variable {q : Request}

def ends (batches : List (TopicPartition × List Record)) : List (TopicPartition × Nat) :=
  batches.filterMap fun b => (endOf b.2).map fun x => (b.1, x)

variable (D) in
def Polled (w : World) (batches : List (TopicPartition × List Record)) : Prop :=
  ∀ b ∈ batches, (∀ r ∈ b.2, r.tp = b.1) ∧ ∀ x, endOf b.2 = some x → Ready D w b.1 b.2 x

variable {batches : List (TopicPartition × List Record)}

theorem Polled.stable (h : Polled D w batches) (hgrows : Grows w w') : Polled D w' batches :=
  fun b hb => ⟨(h b hb).1, fun x hx => ((h b hb).2 x hx).stable hgrows⟩

theorem ensures_batch {tp : TopicPartition} {recs : List Record} {rest : List (TopicPartition × List Record)}
    (hpolled : Polled D w ((tp, recs) :: rest)) (hsettled : Settled D n w (ends ((tp, recs) :: rest))) :
    Ensures serve (contract D) n q Grows (cleanPrefix D recs) w fun done w =>
      done ⊆ recs ∧ Clean D w done ∧ Settled D n w (ends rest) := by
  obtain ⟨htp, hready⟩ := hpolled _ List.mem_cons_self
  cases hend : endOf recs with
  | none =>
    have hnil : recs = [] := by simpa [endOf] using hend
    subst hnil
    exact Ensures.ret ⟨fun _ h => h, Clean.nil, hsettled⟩
  | some x =>
    have hends : ends ((tp, recs) :: rest) = (tp, x) :: ends rest := by
      simp only [ends, List.filterMap_cons, hend, Option.map_some]
    rw [hends] at hsettled
    exact ensures_cleanPrefix htp (hready x hend) hsettled

theorem ensures_eachPartition (hpolled : Polled D w batches) (hsettled : Settled D n w (ends batches)) :
    Ensures serve (contract D) n q Grows (eachPartition D batches) w fun done w =>
      Clean D w done ∧ Settled D n w [] := by
  induction batches generalizing w with
  | nil => exact Ensures.ret ⟨Clean.nil, hsettled⟩
  | cons b rest ih =>
    obtain ⟨tp, recs⟩ := b
    have hrest : Polled D w rest := fun b hb => hpolled b (List.mem_cons_of_mem _ hb)
    refine (ensures_batch hpolled hsettled).bind fun done w hgrows hmid => ?_
    refine (ih (hrest.stable hgrows) hmid.2.2).bind fun done' w hgrows' hmid' => Ensures.ret ⟨?_, hmid'.2⟩
    intro r hr
    rcases List.mem_append.mp hr with hr | hr
    · exact hmid.2.1.stable hgrows' r hr
    · exact hmid'.1 r hr

theorem ensures_commit {offsets : List (TopicPartition × Nat)} {pending : List (TopicPartition × Nat)}
    (hclean : ∀ tp o, (tp, o) ∈ offsets → Below D w tp o) (hsettled : Settled D n w pending) :
    Ensures serve (contract D) n q Grows (Call.commit offsets) w fun _ w => Settled D n w pending := by
  intro w₁ hrely hw c _ a w₂ hserve
  cases c with
  | commit applied result =>
    cases hserve
    have hgrows : Grows w₁ (w₁.commit offsets applied) :=
      ⟨fun _ _ h => .inl h, fun _ _ h => h, fun _ => Nat.le_refl _, fun _ h => h⟩
    refine ⟨⟨hw.sorted, hw.bound, fun tp o ho => ?_⟩, fun m _ => Rely.other hgrows rfl rfl, trivial,
      hrely.grows.trans hgrows, hsettled.stable (hrely.trans (Rely.other hgrows rfl rfl))⟩
    have hold : w₁.committed tp = some o → Below D (w₁.commit offsets applied) tp o :=
      fun ho => (hw.committed tp o ho).mono hgrows
    simp only [World.commit] at ho
    split at ho
    · cases hl : offsets.lookup tp with
      | none =>
        rw [hl, Option.none_or] at ho
        exact hold ho
      | some o' =>
        rw [hl, Option.some_or] at ho
        cases ho
        obtain ⟨l₁, l₂, hsplit, -⟩ := List.lookup_eq_some_iff.mp hl
        have hmem : (tp, o) ∈ offsets := by
          rw [hsplit]
          exact List.mem_append_right _ List.mem_cons_self
        exact (hclean tp o hmem).mono (hrely.grows.trans hgrows)
    · exact hold ho
  | fetch counts => cases hserve
  | stop => cases hserve
  | handled result => cases hserve

theorem mem_commitRecords {recs : List Record} {tp : TopicPartition} {o : Nat}
    (h : (tp, o) ∈ commitRecords recs) : ∃ r ∈ recs, r.tp = tp ∧ o = r.offset + 1 := by
  obtain ⟨tp', -, hmax⟩ := List.mem_filterMap.mp h
  obtain ⟨o', ho', heq⟩ := Option.map_eq_some_iff.mp hmax
  cases heq
  obtain ⟨r, hr, rfl⟩ := List.mem_map.mp (List.max?_mem ho')
  obtain ⟨hr, htp⟩ := List.mem_filter.mp hr
  exact ⟨r, hr, by simpa using htp, rfl⟩

theorem mem_take_iff {l : List Record} (hl : l.Pairwise fun r r' => r.offset < r'.offset) {k : Nat} {last : Record}
    (hlast : (l.take k).getLast? = some last) (r : Record) : r ∈ l.take k ↔ r ∈ l ∧ r.offset < last.offset + 1 := by
  have hlast_mem : last ∈ l.take k := List.mem_of_getLast? hlast
  constructor
  · intro hr
    refine ⟨List.mem_of_mem_take hr, ?_⟩
    obtain ⟨front, hfront⟩ := List.getLast?_eq_some_iff.mp hlast
    have hsorted := hl.sublist (List.take_sublist k l)
    rw [hfront] at hr hsorted
    rcases List.mem_append.mp hr with hr | hr
    · exact Nat.lt_succ_of_lt ((List.pairwise_append.mp hsorted).2.2 r hr last List.mem_cons_self)
    · rw [List.mem_singleton] at hr
      rw [hr]
      exact Nat.lt_succ_self _
  · rintro ⟨hr, hlt⟩
    rw [← List.take_append_drop k l] at hr hl
    rcases List.mem_append.mp hr with hr | hr
    · exact hr
    · have hgt := (List.pairwise_append.mp hl).2.2 last hlast_mem r hr
      omega

theorem ready_batch (hw : Kept D w) {k x : Nat} (hsettled : Settled D n w [])
    (hf : w.failed n tp = false) (hend : endOf (w.batch n tp k) = some x) : Ready D w tp (w.batch n tp k) x := by
  obtain ⟨last, hlast, rfl⟩ := Option.map_eq_some_iff.mp hend
  unfold World.batch at hlast ⊢
  cases hpos : w.position n tp with
  | none =>
    rw [hpos] at hlast
    cases hlast
  | some o =>
    simp only [hpos] at hlast ⊢
    have hsorted := (hw.sorted tp).filter fun r => o ≤ r.offset
    have hmem := List.mem_of_mem_filter (List.mem_of_mem_take (List.mem_of_getLast? hlast))
    refine ⟨(hw.bound tp last hmem).2, hsorted.sublist (List.take_sublist _ _), o, ?_, fun r => ?_⟩
    · exact (hsettled tp o hpos hf).resolve_right List.not_mem_nil
    · rw [mem_take_iff hsorted hlast, List.mem_filter, decide_eq_true_eq, and_assoc]

theorem batch_tp (hw : Kept D w) {k : Nat} {r : Record} (hr : r ∈ w.batch n tp k) : r.tp = tp := by
  unfold World.batch at hr
  split at hr
  · cases hr
  · exact (hw.bound tp r (List.mem_of_mem_filter (List.mem_of_mem_take hr))).1

theorem holds_poll (hsettled : Settled D n w []) : Holds serve (contract D) n q (Call.poll maxRecords)
      (fun a w => ∀ batches, a = some batches → Polled D w batches ∧ Settled D n w (ends batches)) w := by
  intro w₁ hrely hw c hguard a w₂ hserve
  have hsettled₁ := hsettled.stable hrely
  cases c with
  | fetch counts =>
    simp only [serve] at hserve
    split at hserve
    · cases hserve
      have hgrows : ∀ batches, Grows w₁ (w₁.fetched n batches) := fun _ =>
        ⟨fun _ _ h => .inl h, fun _ _ h => h, fun _ => Nat.le_refl _, fun _ h => h⟩
      refine ⟨⟨hw.sorted, hw.bound, fun tp o ho => (hw.committed tp o ho).mono (hgrows _)⟩,
        fun m hm => Rely.other (hgrows _) (Function.update_of_ne hm _ _) rfl, trivial, ?_⟩
      intro batches hbatches
      cases hbatches
      refine ⟨fun b hb => ?_, fun tp x hx hf => ?_⟩
      · obtain ⟨tc, htc, rfl⟩ := List.mem_map.mp hb
        refine ⟨fun r hr => batch_tp hw hr, fun x hx => ?_⟩
        have hne : w₁.batch n tc.1 tc.2 ≠ [] := by
          intro hnil
          rw [hnil] at hx
          cases hx
        exact (ready_batch hw hsettled₁ (hguard tc htc hne) hx).stable (hgrows _)
      · simp only [World.fetched, Function.update_self] at hx
        rcases Option.or_eq_some_iff.mp hx with hend | ⟨-, hold⟩
        · obtain ⟨recs, hl, hend⟩ := Option.bind_eq_some_iff.mp hend
          obtain ⟨l₁, l₂, hsplit, -⟩ := List.lookup_eq_some_iff.mp hl
          refine .inr (List.mem_filterMap.mpr ⟨(tp, recs), ?_, by rw [hend, Option.map_some]⟩)
          rw [hsplit]
          exact List.mem_append_right _ List.mem_cons_self
        · exact .inl (((hsettled₁ tp x hold hf).resolve_right List.not_mem_nil).mono (hgrows _))
    · cases hserve
  | stop =>
    cases hserve
    exact ⟨hw, fun m _ => Rely.refl m w₁, trivial, fun batches h => nomatch h⟩
  | handled result => cases hserve
  | commit applied result => cases hserve

theorem holds_goRun {k : Nat} (hsettled : Settled D n w []) :
    Holds serve (contract D) n q (goRun D k) (fun _ _ => True) w := by
  induction k generalizing w with
  | zero => trivial
  | succ k ih =>
    refine (holds_poll hsettled).bind fun a w hpoll => ?_
    cases a with
    | none => trivial
    | some batches =>
      obtain ⟨hpolled, hsettled⟩ := hpoll batches rfl
      refine Holds.bind (ensures_eachPartition hpolled hsettled) fun commit w hdone => ?_
      obtain ⟨-, hclean, hsettled⟩ := hdone
      split
      · exact ih hsettled
      · have hoffsets : ∀ tp o, (tp, o) ∈ commitRecords commit → Below D w tp o := by
          intro tp o hmem
          obtain ⟨r, hr, rfl, rfl⟩ := mem_commitRecords hmem
          exact hclean r hr
        exact Holds.bind (ensures_commit hoffsets hsettled) fun _ w hcommit => ih hcommit.2

theorem ensures_processPartition {tp : TopicPartition} {recs : List Record}
    {rest : List (TopicPartition × List Record)} (hpolled : Polled D w ((tp, recs) :: rest))
    (hsettled : Settled D n w (ends ((tp, recs) :: rest))) :
    Ensures serve (contract D) n q Grows (processPartition D tp recs) w fun _ w => Settled D n w (ends rest) := by
  have htp := (hpolled _ List.mem_cons_self).1
  refine (ensures_batch hpolled hsettled).bind fun done w _ hmid => ?_
  obtain ⟨hsub, hclean, hsettled⟩ := hmid
  cases hend : endOf done with
  | none => exact Ensures.ret hsettled
  | some x =>
    obtain ⟨last, hlast, rfl⟩ := Option.map_eq_some_iff.mp hend
    have hlast := List.mem_of_getLast? hlast
    refine ensures_commit (fun tp' o hmem => ?_) hsettled
    cases List.mem_singleton.mp hmem
    have hbelow := hclean last hlast
    rw [htp last (hsub hlast)] at hbelow
    exact hbelow

theorem holds_processPartitions (hpolled : Polled D w batches) (hsettled : Settled D n w (ends batches)) :
    Holds serve (contract D) n q (processPartitions D batches) (fun a w => a = .ok () → Settled D n w []) w := by
  induction batches generalizing w with
  | nil => exact fun _ => hsettled
  | cons b rest ih =>
    obtain ⟨tp, recs⟩ := b
    have hrest : Polled D w rest := fun b hb => hpolled b (List.mem_cons_of_mem _ hb)
    refine Holds.bind (ensures_processPartition hpolled hsettled) fun a w hmid => ?_
    cases a with
    | error m => exact fun h => nomatch h
    | ok u => exact ih (hrest.stable hmid.1) hmid.2

theorem holds_pythonRun {k : Nat} (hsettled : Settled D n w []) :
    Holds serve (contract D) n q (pythonRun D k) (fun _ _ => True) w := by
  induction k generalizing w with
  | zero => trivial
  | succ k ih =>
    refine (holds_poll hsettled).bind fun a w hpoll => ?_
    cases a with
    | none => trivial
    | some batches =>
      obtain ⟨hpolled, hsettled⟩ := hpoll batches rfl
      refine (holds_processPartitions hpolled hsettled).bind fun a w hdone => ?_
      cases a with
      | error m => trivial
      | ok u => exact ih (hdone rfl)
end Rounds

variable (D) in
/-- **Events are handled at least once**, in every run in which no record is polled past a failure. -/
theorem at_least_once (moves : List (Move Request Choice Drift))
    (inOrder : ∀ e ∈ trace (system D).step { shared := {} } moves, Allowed (fun n _ w _ c => InOrder n w c) e.1 e.2)
    (tp : TopicPartition) (o : Nat) :
    let w := ((system D).exec {} moves).shared
    w.committed tp = some o → ∀ r ∈ w.log tp, r.offset < o → r.Decodable D → (tp, r.offset) ∈ w.handled := by
  intro w ho
  have hsound : Sound (system D) (contract D) (fun _ _ _ _ => True) ((system D).exec {} moves) := by
    refine (system D).sound (contract D) contract_stable (fun _ _ _ _ _ _ _ => trivial)
      (fun n q w _ hfresh => ⟨trivial, ?_⟩) Kept.init (fun n tp x hx => ?_) moves fun e he => ?_
    · show Holds serve (contract D) n q (run D q) _ w
      unfold run
      cases D.client with
      | go => exact holds_goRun hfresh
      | python => exact holds_pythonRun hfresh
    · cases hx
    · have h := inOrder e he
      cases e with
      | mk c m => cases m <;> exact h
  exact (hsound.inv.committed tp o ho).handled

namespace Sample
def deployment (client : Client) : Deployment where
  decode value := some { name := "paylink.verified", payload := value }
  client := client

def paylink : TopicPartition := { topic := "paylink", partition := 0 }

def failure : List (Move Request Choice Drift) :=
  [.drift (.produce paylink 0 [1]), .drift (.produce paylink 0 [2]), .start { rounds := 2 },
    .drift (.assign 0 paylink), .run 0 (.fetch [(paylink, 1)]), .run 0 (.handled (.error "boom"))]

def goesOn : List (Move Request Choice Drift) :=
  [.run 0 (.fetch [(paylink, 1)]), .run 0 (.handled (.ok ())), .run 0 (.commit [paylink] (.ok ()))]

def rebalanced : List (Move Request Choice Drift) :=
  [.drift (.assign 0 paylink), .run 0 (.fetch [(paylink, 2)]), .run 0 (.handled (.ok ())),
    .run 0 (.handled (.ok ())), .run 0 (.commit [paylink] (.ok ()))]
end Sample

open Sample in
/-- Either consumer commits offset 2 although the first record was never handled. -/
theorem unhandled_committed : let go := ((system (deployment .go)).exec {} (failure ++ goesOn)).shared
    let python := ((system (deployment .python)).exec {} (failure ++ goesOn)).shared
    ((go.log paylink).map (·.offset) = [0, 1] ∧ go.committed paylink = some 2 ∧ go.handled = [(paylink, 1)]) ∧
    (python.log paylink).map (·.offset) = [0, 1] ∧ python.committed paylink = some 2 ∧
      python.handled = [(paylink, 1)] := by
  decide +kernel

open Sample in
/-- After a rebalance both are handled. -/
theorem at_least_once_rebalanced : let w := ((system (deployment .go)).exec {} (failure ++ rebalanced)).shared
    w.committed paylink = some 2 ∧
      ∀ r ∈ w.log paylink, r.offset < 2 → r.Decodable (deployment .go) → (paylink, r.offset) ∈ w.handled := by
  intro w
  have hcommitted : w.committed paylink = some 2 := by decide +kernel
  refine ⟨hcommitted, at_least_once (deployment .go) (failure ++ rebalanced) ?_ paylink 2 hcommitted⟩
  decide +kernel

end LinkMint.EventBus
