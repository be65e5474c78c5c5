import LinkMint.Chain.Proof.Books
import Mathlib.Data.List.Dedup
import Mathlib.Algebra.Order.BigOperators.Group.List

/-!
# Fee payouts

What `DistributeFees` pays is determined before anything is minted: `dues` lists it, the shares
rounded down and the rest for the voter with the greatest address.
-/

namespace LinkMint.Chain

open LinkMint.Lib Std

def weight (s : Snapshot) (addr : Address) : Nat := (activeStake s addr).elim 0 UInt64.toNat

def dues (reward totalStake : UInt64) : List (Address × UInt64) → UInt64 → List ValidatorPayout
  | [], _ => []
  | (addr, stake) :: rest, distributed =>
    let due := if rest = [] then reward - distributed else reward * stake / totalStake
    { validator := addr, amount := due } :: dues reward totalStake rest (distributed + due)

def paid (reward totalStake : UInt64) (L : List (Address × UInt64)) (distributed : UInt64) : List ValidatorPayout :=
  (dues reward totalStake L distributed).filter (0 < ·.amount)

def Snapshot.credit (s : Snapshot) (p : ValidatorPayout) : Snapshot :=
  { s.addBalance p.validator p.amount with totalSupply := s.totalSupply + p.amount }

def amounts (payouts : List ValidatorPayout) : Nat := (payouts.map (·.amount.toNat)).sum

section Voters

variable {s : Snapshot} {voters : List Address}

theorem weight_le_stakeOf (s : Snapshot) (addr : Address) : weight s addr ≤ stakeOf s addr := by
  unfold weight activeStake stakeOf share
  cases s.validators[addr]? with
  | none => simp
  | some v => cases h : v.isActive <;> simp [h]

theorem sum_weight_le_stakes (h : voters.Nodup) : (voters.map (weight s)).sum ≤ stakes s := by
  have hle : (voters.map (weight s)).sum ≤ (voters.map (stakeOf s)).sum :=
    List.sum_le_sum fun addr _ => weight_le_stakeOf s addr
  exact hle.trans (sum_share_le_total _ h s.validators)

theorem toNat_totalVoterStake (fits : (voters.map (weight s)).sum < 2 ^ 64) :
    (totalVoterStake s voters).toNat = (voters.map (weight s)).sum := by
  -- the accumulator, generalised
  have key : ∀ (voters : List Address) (acc : UInt64), acc.toNat + (voters.map (weight s)).sum < 2 ^ 64 →
      (voters.foldl (fun sum addr => (activeStake s addr).elim sum fun stake => sum + stake)
        acc).toNat = acc.toNat + (voters.map (weight s)).sum := by
    intro voters
    induction voters with
    | nil => intro acc _; simp
    | cons addr voters ih =>
      intro acc hfit
      simp only [List.map_cons, List.sum_cons, List.foldl_cons] at hfit ⊢
      cases hst : activeStake s addr with
      | none =>
        have hw : weight s addr = 0 := by simp [weight, hst]
        rw [hw] at hfit ⊢
        rw [Option.elim_none, ih acc (by omega)]
        omega
      | some stake =>
        have hw : weight s addr = stake.toNat := by simp [weight, hst]
        rw [hw] at hfit ⊢
        have hadd : (acc + stake).toNat = acc.toNat + stake.toNat := toNat_add_of_fits (by omega)
        rw [Option.elim_some, ih (acc + stake) (by omega), hadd]
        omega
  have h := key voters 0 (by simpa using fits)
  simpa [totalVoterStake] using h

theorem getElem?_voterStakes (s : Snapshot) (voters : List Address) (addr : Address) :
    (voterStakes s voters)[addr]? = if addr ∈ voters then activeStake s addr else none := by
  have key : ∀ (voters : List Address) (m : ExtTreeMap Address UInt64),
      (voters.foldl (fun m addr => (activeStake s addr).elim m fun stake => m.insert addr stake) m)[addr]? =
        if addr ∈ voters then (activeStake s addr).or m[addr]? else m[addr]? := by
    intro voters
    induction voters with
    | nil => intro m; simp
    | cons a voters ih =>
      intro m
      rw [List.foldl_cons, ih]
      cases hst : activeStake s a with
      | none => grind
      | some stake =>
        rw [Option.elim_some, getElem?_insert_eq]
        grind
  simpa [voterStakes] using key voters ∅

theorem mem_voterStakes {e : Address × UInt64} :
    e ∈ (voterStakes s voters).toList ↔ e.1 ∈ voters ∧ activeStake s e.1 = some e.2 := by
  rw [ExtTreeMap.mem_toList_iff_getElem?_eq_some, getElem?_voterStakes, Option.ite_none_right_eq_some]

theorem voterStakes_perm (s : Snapshot) (voters : List Address) :
    (voterStakes s voters).toList.Perm (voters.dedup.filterMap fun addr => (activeStake s addr).map (addr, ·)) := by
  refine (List.perm_ext_iff_of_nodup ?_ ?_).mpr ?_
  · refine (voterStakes s voters).distinct_keys_toList.imp fun hne heq => hne ?_
    exact LawfulEqCmp.compare_eq_iff_eq.mpr (congrArg Prod.fst heq)
  · refine (List.nodup_dedup voters).filterMap fun a b e ha hb => ?_
    simp only [Option.mem_def, Option.map_eq_some_iff] at ha hb
    obtain ⟨x, -, rfl⟩ := ha
    obtain ⟨y, -, hy⟩ := hb
    exact (congrArg Prod.fst hy).symm
  · rintro ⟨addr, stake⟩
    rw [mem_voterStakes]
    simp only [List.mem_filterMap, List.mem_dedup, Option.map_eq_some_iff, Prod.mk.injEq]
    grind

theorem sum_filterMap_stakes (l : List Address) :
    ((l.filterMap fun addr => (activeStake s addr).map (addr, ·)).map (·.2.toNat)).sum = (l.map (weight s)).sum := by
  induction l with
  | nil => rfl
  | cons addr l ih => cases hst : activeStake s addr <;> simp [weight, hst, ih]

theorem sum_voterStakes (s : Snapshot) (voters : List Address) :
    ((voterStakes s voters).toList.map (·.2.toNat)).sum = (voters.dedup.map (weight s)).sum := by
  rw [((voterStakes_perm s voters).map _).sum_eq, sum_filterMap_stakes]

theorem sum_voterStakes_le (s : Snapshot) (voters : List Address) :
    ((voterStakes s voters).toList.map (·.2.toNat)).sum ≤ (voters.map (weight s)).sum := by
  rw [sum_voterStakes]
  exact ((List.dedup_sublist voters).map _).sum_le_sum fun _ _ => Nat.zero_le _
end Voters

section Dues

variable {reward totalStake : UInt64}

theorem dues_concat (reward totalStake distributed : UInt64) (init : List (Address × UInt64)) (last : Address × UInt64) :
    dues reward totalStake (init ++ [last]) distributed =
      init.map (fun e => { validator := e.1, amount := reward * e.2 / totalStake }) ++
        [{ validator := last.1
           amount := reward - (distributed + (init.map fun e => reward * e.2 / totalStake).sum) }] := by
  induction init generalizing distributed with
  | nil => simp [dues]
  | cons e init ih => simp [dues, ih, UInt64.add_assoc]

theorem toNat_sum {l : List UInt64} (h : (l.map UInt64.toNat).sum < 2 ^ 64) : l.sum.toNat = (l.map UInt64.toNat).sum := by
  induction l with
  | nil => rfl
  | cons a l ih =>
    rw [List.map_cons, List.sum_cons] at h
    rw [List.sum_cons, List.map_cons, List.sum_cons, toNat_add_of_fits (by rw [ih (by omega)]; exact h), ih (by omega)]

theorem sum_shares_mul_le (l : List (Address × UInt64)) :
    (l.map fun e => (reward * e.2 / totalStake).toNat).sum * totalStake.toNat ≤
      reward.toNat * (l.map (·.2.toNat)).sum := by
  induction l with
  | nil => simp
  | cons e l ih =>
    have hone : (reward * e.2 / totalStake).toNat * totalStake.toNat ≤ reward.toNat * e.2.toNat := by
      rw [UInt64.toNat_div]
      exact (Nat.div_mul_le_self _ _).trans (toNat_mul_le reward e.2)
    rw [List.map_cons, List.sum_cons, List.map_cons, List.sum_cons, Nat.add_mul, Nat.mul_add]
    omega

/-- The last voter gets the rest of the reward, which makes up the reward unless the earlier
    shares already exceed it. -/
theorem amounts_dues_iff {init : List (Address × UInt64)} {last : Address × UInt64} :
    amounts (dues reward totalStake (init ++ [last]) 0) = reward.toNat ↔
      (init.map fun e => (reward * e.2 / totalStake).toNat).sum ≤ reward.toNat := by
  unfold amounts
  rw [dues_concat, UInt64.zero_add, List.map_append, List.sum_append, List.map_map]
  simp only [List.map_cons, List.map_nil, List.sum_cons, List.sum_nil, Nat.add_zero]
  constructor
  · intro heq
    exact (Nat.le_add_right _ _).trans_eq heq
  · intro hshares
    have hsum : (init.map fun e => reward * e.2 / totalStake).sum.toNat =
        (init.map fun e => (reward * e.2 / totalStake).toNat).sum := by
      rw [toNat_sum, List.map_map]
      · rfl
      · rw [List.map_map]
        exact Nat.lt_of_le_of_lt hshares reward.toNat_lt
    rw [UInt64.toNat_sub_of_le _ _ (UInt64.le_iff_toNat_le.mpr (by rw [hsum]; exact hshares)), hsum]
    exact Nat.add_sub_cancel' hshares

theorem amounts_dues {L : List (Address × UInt64)} (hne : L ≠ []) (hpos : 0 < totalStake.toNat)
    (hle : (L.map (·.2.toNat)).sum ≤ totalStake.toNat) :
    amounts (dues reward totalStake L 0) = reward.toNat := by
  obtain ⟨init, last, rfl⟩ := (List.eq_nil_or_concat' L).resolve_left hne
  rw [List.map_append, List.sum_append] at hle
  refine amounts_dues_iff.mpr (Nat.le_of_mul_le_mul_right ?_ hpos)
  exact (sum_shares_mul_le init).trans (Nat.mul_le_mul_left _ (by omega))

theorem amounts_filter (l : List ValidatorPayout) : amounts (l.filter (0 < ·.amount)) = amounts l := by
  induction l with
  | nil => rfl
  | cons p l ih =>
    unfold amounts at ih ⊢
    by_cases hp : 0 < p.amount
    · rw [List.filter_cons_of_pos (by simpa using hp), List.map_cons, List.sum_cons, List.map_cons, List.sum_cons, ih]
    · have hzero : p.amount = 0 := by simpa using hp
      rw [List.filter_cons_of_neg (by simpa using hp), ih, List.map_cons, List.sum_cons, hzero]
      simp

theorem map_validator_dues (reward totalStake distributed : UInt64) (L : List (Address × UInt64)) :
    (dues reward totalStake L distributed).map (·.validator) = L.map (·.1) := by
  induction L generalizing distributed with
  | nil => rfl
  | cons e L ih => simp [dues, ih]
end Dues

section Loop

variable {cp : ChainParams} {s s' : Snapshot}

theorem mintTokens_credit (cp : ChainParams) (s : Snapshot) (p : ValidatorPayout)
    (h : s.totalSupply.toNat + p.amount.toNat ≤ cp.maxSupply.toNat) :
    s.mintTokens cp p.validator p.amount = .ok (s.credit p) := by
  refine Snapshot.mintTokens_ok.mpr ⟨?_, rfl⟩
  have hlt := cp.maxSupply.toNat_lt
  rw [UInt64.le_iff_toNat_le, toNat_add_of_fits (by omega)]
  exact h

theorem totalSupply_credits (s : Snapshot) (payments : List ValidatorPayout)
    (h : s.totalSupply.toNat + amounts payments < 2 ^ 64) :
    (payments.foldl Snapshot.credit s).totalSupply.toNat = s.totalSupply.toNat + amounts payments := by
  induction payments generalizing s with
  | nil => rfl
  | cons p payments ih =>
    unfold amounts at ih h ⊢
    rw [List.map_cons, List.sum_cons] at h ⊢
    have hp : (s.credit p).totalSupply.toNat = s.totalSupply.toNat + p.amount.toNat := toNat_add_of_fits (by omega)
    rw [List.foldl_cons, ih _ (by omega), hp]
    omega

theorem totalBurned_credits (payments : List ValidatorPayout) :
    (payments.foldl Snapshot.credit s).totalBurned = s.totalBurned := by
  induction payments generalizing s with
  | nil => rfl
  | cons p payments ih => exact ih (s := s.credit p)

/-- The mints of a list of payments in their order, up to the first one the cap refuses. -/
def mints (cp : ChainParams) : List ValidatorPayout → Snapshot → Bool × Snapshot
  | [], s => (true, s)
  | p :: payments, s =>
    if s.totalSupply + p.amount > cp.maxSupply then (false, s) else mints cp payments (s.credit p)

theorem mints_append {l l' : List ValidatorPayout} {s₁ : Snapshot} (h : mints cp l s = (true, s₁)) :
    mints cp (l ++ l') s = mints cp l' s₁ := by
  induction l generalizing s with
  | nil => cases h; rfl
  | cons p l ih =>
    rw [List.cons_append, mints] at *
    split at h
    · cases h
    · next hroom => rw [if_neg hroom, ih h]

theorem mints_append_refused {l l' : List ValidatorPayout} {s₁ : Snapshot}
    (h : mints cp l s = (false, s₁)) : mints cp (l ++ l') s = (false, s₁) := by
  induction l generalizing s with
  | nil => cases h
  | cons p l ih =>
    rw [List.cons_append, mints] at *
    split at h
    · next hover => rw [if_pos hover, h]
    · next hroom => rw [if_neg hroom, ih h]

theorem mints_true {l : List ValidatorPayout} {s₁ : Snapshot} (h : mints cp l s = (true, s₁)) :
    s₁ = l.foldl Snapshot.credit s := by
  induction l generalizing s with
  | nil => cases h; rfl
  | cons p l ih =>
    rw [mints] at h
    split at h
    · cases h
    · exact ih h

/-- A refused list is refused at some payment, with those before it made. -/
theorem mints_false {l : List ValidatorPayout} {s₁ : Snapshot} (h : mints cp l s = (false, s₁)) :
    ∃ done p rest, l = done ++ p :: rest ∧ s₁ = done.foldl Snapshot.credit s ∧
      s₁.totalSupply + p.amount > cp.maxSupply := by
  induction l generalizing s with
  | nil => cases h
  | cons p l ih =>
    rw [mints] at h
    split at h
    · next hover =>
      cases h
      exact ⟨[], p, l, rfl, rfl, hover⟩
    · obtain ⟨done, q, rest, rfl, rfl, hover⟩ := ih h
      exact ⟨p :: done, q, rest, rfl, rfl, hover⟩

theorem mints_of_room {l : List ValidatorPayout}
    (room : s.totalSupply.toNat + amounts l ≤ cp.maxSupply.toNat) :
    mints cp l s = (true, l.foldl Snapshot.credit s) := by
  induction l generalizing s with
  | nil => rfl
  | cons p l ih =>
    unfold amounts at room ih
    rw [List.map_cons, List.sum_cons] at room
    have hlt := cp.maxSupply.toNat_lt
    have hsupply : (s.credit p).totalSupply.toNat = s.totalSupply.toNat + p.amount.toNat :=
      toNat_add_of_fits (b := p.amount) (by omega)
    have hroom : ¬ s.totalSupply + p.amount > cp.maxSupply := by
      rw [gt_iff_lt, UInt64.not_lt, UInt64.le_iff_toNat_le]
      show (s.credit p).totalSupply.toNat ≤ _
      omega
    rw [mints, if_neg hroom, ih (by omega)]
    rfl

/-- The loop over the voters mints what is due and is not nothing. -/
theorem payVoters_mints {reward totalStake : UInt64} {L : List (Address × UInt64)}
    {distributed : UInt64} (payouts : List ValidatorPayout) {done : Bool}
    (h : mints cp (paid reward totalStake L distributed) s = (done, s')) :
    (done = true → payVoters cp reward totalStake L distributed payouts s =
      (.ok (payouts ++ paid reward totalStake L distributed), s')) ∧
    (done = false → ∃ e, payVoters cp reward totalStake L distributed payouts s = (.error e, s')) := by
  unfold paid at h ⊢
  induction L generalizing distributed payouts s with
  | nil =>
    cases h
    simp [payVoters, dues]
  | cons e L ih =>
    simp only [payVoters, dues] at h ⊢
    generalize (if L = [] then reward - distributed else reward * e.2 / totalStake) = due at h ⊢
    by_cases hpos : due > 0
    · rw [List.filter_cons_of_pos (by simpa using hpos)] at h ⊢
      rw [if_pos hpos]
      simp only [mints] at h
      split at h
      · next hover =>
        cases h
        rw [Snapshot.mintTokens, if_pos hover]
        exact ⟨by simp, fun _ => ⟨_, rfl⟩⟩
      · next hroom =>
        have hmint : s.mintTokens cp e.1 due = .ok (s.credit ⟨e.1, due⟩) := if_neg hroom
        have hrest := ih (payouts ++ [⟨e.1, due⟩]) h
        rw [List.append_assoc, List.singleton_append] at hrest
        rw [hmint]
        exact hrest
    · rw [List.filter_cons_of_neg (by simpa using hpos)] at h ⊢
      rw [if_neg hpos]
      exact ih payouts h
end Loop

def MintFits (cp : ChainParams) (s : Snapshot) (fee : FeeBreakdown) : Prop :=
  s.totalSupply + (fee.validatorReward + fee.treasuryAmount) ≤ cp.maxSupply →
    s.totalSupply.toNat + fee.validatorReward.toNat + fee.treasuryAmount.toNat < 2 ^ 64

instance (cp : ChainParams) (s : Snapshot) (fee : FeeBreakdown) : Decidable (MintFits cp s fee) :=
  inferInstanceAs (Decidable (_ → _))

def treasuryPayment (cp : ChainParams) (fee : FeeBreakdown) : List ValidatorPayout :=
  if fee.treasuryAmount > 0 then [{ validator := cp.treasuryAddress, amount := fee.treasuryAmount }] else []

theorem amounts_treasuryPayment (cp : ChainParams) (fee : FeeBreakdown) :
    amounts (treasuryPayment cp fee) = fee.treasuryAmount.toNat := by
  unfold treasuryPayment
  split
  · simp [amounts]
  · next hzero =>
    have : fee.treasuryAmount = 0 := by simpa using hzero
    rw [this]
    rfl

def rewards (s : Snapshot) (fee : FeeBreakdown) (voters : List Address) : List ValidatorPayout :=
  paid fee.validatorReward (totalVoterStake s voters) (voterStakes s voters).toList 0

section Distribution

variable {cp : ChainParams} {s : Snapshot} {fee : FeeBreakdown} {voters : List Address}

theorem amounts_rewards (fee : FeeBreakdown) (hfits : (voters.map (weight s)).sum < 2 ^ 64) (hstake : totalVoterStake s voters ≠ 0) :
    amounts (rewards s fee voters) = fee.validatorReward.toNat := by
  have htotal := toNat_totalVoterStake hfits
  have hpos : (totalVoterStake s voters).toNat ≠ 0 := fun h => hstake (UInt64.toNat_inj.mp h)
  refine (amounts_filter _).trans (amounts_dues ?_ (Nat.pos_of_ne_zero hpos) ?_)
  · obtain ⟨w, hw, hne⟩ := List.exists_mem_ne_zero_of_sum_ne_zero (htotal ▸ hpos)
    obtain ⟨addr, haddr, rfl⟩ := List.mem_map.mp hw
    cases hactive : activeStake s addr with
    | none => simp [weight, hactive] at hne
    | some stake =>
      exact List.ne_nil_of_mem (a := (addr, stake)) (mem_voterStakes.mpr ⟨haddr, hactive⟩)
  · rw [htotal]
    exact sum_voterStakes_le s voters

/-- Past its three checks `DistributeFees` mints the payments and records the burn. -/
theorem distributeFees_mints {done : Bool} {s' : Snapshot} (hfee : fee.totalFee ≠ 0)
    (hstake : totalVoterStake s voters ≠ 0)
    (hcap : ¬ s.totalSupply + (fee.validatorReward + fee.treasuryAmount) > cp.maxSupply)
    (h : mints cp (rewards s fee voters ++ treasuryPayment cp fee) s = (done, s')) :
    (done = true → distributeFees cp fee voters s =
      (.ok (rewards s fee voters), s'.recordBurn fee.burnAmount)) ∧
    (done = false → ∃ e, distributeFees cp fee voters s = (.error e, s')) := by
  -- the burn is recorded if it is not nothing, which is the same
  have hburn : ∀ s' : Snapshot, (if fee.burnAmount > 0 then s'.recordBurn fee.burnAmount else s') =
      s'.recordBurn fee.burnAmount := by
    intro s'
    split
    · rfl
    · next hzero =>
      have : fee.burnAmount = 0 := by simpa using hzero
      rw [this, Snapshot.recordBurn, UInt64.add_zero]
  unfold distributeFees
  simp only
  rw [if_neg hfee, if_neg hstake, if_neg hcap]
  rcases hloop : mints cp (rewards s fee voters) s with ⟨_ | _, s₁⟩
  · obtain ⟨e, herror⟩ := (payVoters_mints [] hloop).2 rfl
    rw [mints_append_refused hloop] at h
    cases h
    rw [herror]
    exact ⟨by simp, fun _ => ⟨e, rfl⟩⟩
  · rw [(payVoters_mints [] hloop).1 rfl, List.nil_append, ← rewards]
    rw [mints_append hloop] at h
    unfold treasuryPayment at h
    split at h
    · next htreasury =>
      simp only [mints] at h
      simp only [if_pos htreasury, Snapshot.mintTokens, hburn]
      split at h
      · next hover =>
        cases h
        simp only [if_pos hover]
        exact ⟨by simp, fun _ => ⟨_, rfl⟩⟩
      · next hroom =>
        cases h
        simp only [if_neg hroom]
        exact ⟨fun _ => rfl, by simp⟩
    · next htreasury =>
      cases h
      simp only [if_neg htreasury, hburn]
      exact ⟨fun _ => trivial, by simp⟩

/-- Once the shares sum to the reward, all payments sum to reward and treasury. -/
theorem amounts_payments (cp : ChainParams)
    (hrewards : amounts (rewards s fee voters) = fee.validatorReward.toNat) :
    amounts (rewards s fee voters ++ treasuryPayment cp fee) =
      fee.validatorReward.toNat + fee.treasuryAmount.toNat := by
  have htreasury := amounts_treasuryPayment cp fee
  unfold amounts at hrewards htreasury ⊢
  rw [List.map_append, List.sum_append, hrewards, htreasury]

theorem room_of_mintFits
    (hcap : ¬ s.totalSupply + (fee.validatorReward + fee.treasuryAmount) > cp.maxSupply)
    (hmint : s.totalSupply.toNat + fee.validatorReward.toNat + fee.treasuryAmount.toNat < 2 ^ 64) :
    s.totalSupply.toNat + fee.validatorReward.toNat + fee.treasuryAmount.toNat ≤
      cp.maxSupply.toNat := by
  have hle := UInt64.le_iff_toNat_le.mp (UInt64.not_lt.mp hcap)
  have hsum := toNat_add_of_fits (a := fee.validatorReward) (b := fee.treasuryAmount) (by omega)
  rw [toNat_add_of_fits (by omega), hsum] at hle
  omega

theorem distributeFees_eq (hfee : fee.totalFee ≠ 0) (hstake : totalVoterStake s voters ≠ 0)
    (hcap : ¬ s.totalSupply + (fee.validatorReward + fee.treasuryAmount) > cp.maxSupply)
    (hmint : s.totalSupply.toNat + fee.validatorReward.toNat + fee.treasuryAmount.toNat < 2 ^ 64)
    (hrewards : amounts (rewards s fee voters) = fee.validatorReward.toNat) :
    distributeFees cp fee voters s = (.ok (rewards s fee voters),
      ((rewards s fee voters ++ treasuryPayment cp fee).foldl Snapshot.credit s).recordBurn
        fee.burnAmount) := by
  have hroom := room_of_mintFits hcap hmint
  refine (distributeFees_mints hfee hstake hcap (mints_of_room ?_)).1 rfl
  rw [amounts_payments cp hrewards]
  omega
end Distribution
end LinkMint.Chain
