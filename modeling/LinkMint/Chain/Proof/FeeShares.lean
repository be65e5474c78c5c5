import LinkMint.Chain.Proof.Payouts
import LinkMint.Chain.Proof.FeeArithmetic
import LinkMint.Chain.Devnet

/-!
# Fees are distributed in full, and by stake

`fee_all_or_nothing`: `DistributeFees` fails and leaves the state or mints the fee in full, if and
only if it refuses before the first mint or nothing wraps. `rewards_proportional`: the payouts are
in proportion to the stakes if and only if no share's product wraps. The first is for states within
the cap and breakdowns that add up, with any list of voters; the second for stakes that sum to less
than 2^64, distinct voters and a reward that is minted in full. `fee_minted_past_cap` and
`rewards_not_proportional` show the other side.
-/

namespace LinkMint.Chain

open LinkMint.Lib Std

/-- What the payments of a list credit to `addr`, over the naturals. -/
def received (payouts : List ValidatorPayout) (addr : Address) : Nat :=
  amounts (payouts.filter (·.validator = addr))

/-- The fee is minted in full, all amounts taken over the naturals: the voters' payouts make up the
    reward, one for each and to active voters only, every balance rises by what its address
    receives, and supply and burn rise by the two sums. -/
structure FeeMinted (cp : ChainParams) (s : Snapshot) (fee : FeeBreakdown) (voters : List Address)
    (payouts : List ValidatorPayout) (s' : Snapshot) : Prop where
  rewards : amounts payouts = fee.validatorReward.toNat
  once : (payouts.map (·.validator)).Nodup
  voters : ∀ p ∈ payouts, p.validator ∈ voters ∧ s.isActiveValidator p.validator = true
  balances : ∀ addr, (s'.getBalance addr).toNat = (s.getBalance addr).toNat +
    received payouts addr + received (treasuryPayment cp fee) addr
  supply : s'.totalSupply.toNat =
    s.totalSupply.toNat + fee.validatorReward.toNat + fee.treasuryAmount.toNat
  cap : s'.totalSupply ≤ cp.maxSupply
  burned : s'.totalBurned.toNat = s.totalBurned.toNat + fee.burnAmount.toNat

/-- The contract of `DistributeFees`: it fails and leaves the state, or mints the fee in full. -/
def AllOrNothing (cp : ChainParams) (s : Snapshot) (fee : FeeBreakdown) (voters : List Address) :
    Prop :=
  (∃ e, distributeFees cp fee voters s = (.error e, s)) ∨
    ∃ payouts s', distributeFees cp fee voters s = (.ok payouts, s') ∧
      FeeMinted cp s fee voters payouts s'

/-- Refused before anything is minted: no stake votes, the cap check says no, or the cap refuses
    already the first payment. -/
def RefusedFirst (cp : ChainParams) (s : Snapshot) (fee : FeeBreakdown) (voters : List Address) :
    Prop :=
  totalVoterStake s voters = 0 ∨
    s.totalSupply + (fee.validatorReward + fee.treasuryAmount) > cp.maxSupply ∨
    ∃ p ∈ (rewards s fee voters ++ treasuryPayment cp fee).head?,
      s.totalSupply + p.amount > cp.maxSupply

/-- Nothing wraps: not the new supply, not a balance, not the burn, and the shares of all voters
    but the last leave the last one a rest. `shares` holds whenever the voters' stakes, repeats
    counted, sum to less than 2^64 (`amounts_rewards`). -/
structure MintsFit (cp : ChainParams) (s : Snapshot) (fee : FeeBreakdown) (voters : List Address) :
    Prop where
  supply : s.totalSupply.toNat + fee.validatorReward.toNat + fee.treasuryAmount.toNat < 2 ^ 64
  shares : ((voterStakes s voters).toList.dropLast.map fun e =>
    (fee.validatorReward * e.2 / totalVoterStake s voters).toNat).sum ≤ fee.validatorReward.toNat
  balances : ∀ p ∈ rewards s fee voters ++ treasuryPayment cp fee,
    (s.getBalance p.validator).toNat +
      received (rewards s fee voters ++ treasuryPayment cp fee) p.validator < 2 ^ 64
  burned : s.totalBurned.toNat + fee.burnAmount.toNat < 2 ^ 64

section
variable {cp : ChainParams} {s : Snapshot} {fee : FeeBreakdown} {voters : List Address}

theorem isActiveValidator_of_activeStake {addr : Address} {stake : UInt64}
    (h : activeStake s addr = some stake) : s.isActiveValidator addr = true := by
  unfold activeStake at h
  unfold Snapshot.isActiveValidator
  cases hv : s.validators[addr]? with
  | none =>
    rw [hv] at h
    cases h
  | some v =>
    rw [hv] at h
    simpa using (Option.ite_none_right_eq_some.mp h).1

theorem received_append (l l' : List ValidatorPayout) (addr : Address) :
    received (l ++ l') addr = received l addr + received l' addr := by
  simp [received, amounts]

theorem received_cons (p : ValidatorPayout) (l : List ValidatorPayout) (addr : Address) :
    received (p :: l) addr = (if p.validator = addr then p.amount.toNat else 0) + received l addr := by
  by_cases h : p.validator = addr <;> simp [received, amounts, h]

theorem received_eq_zero {l : List ValidatorPayout} {addr : Address}
    (h : addr ∉ l.map (·.validator)) : received l addr = 0 := by
  have hnone : l.filter (·.validator = addr) = [] := by
    refine List.filter_eq_nil_iff.mpr fun p hp => ?_
    simp only [decide_eq_true_eq]
    rintro rfl
    exact h (List.mem_map_of_mem hp)
  simp [received, hnone, amounts]

theorem getBalance_credit (p : ValidatorPayout) (addr : Address) :
    (s.credit p).getBalance addr =
      if p.validator = addr then s.getBalance addr + p.amount else s.getBalance addr := by
  show ((s.accounts.insert p.validator _)[addr]?).elim 0 _ = _
  rw [getElem?_insert_eq]
  split
  · next heq =>
    rw [← heq, ← Snapshot.getD_balance]
    rfl
  · rfl

/-- A balance after the payments, as the words have it. -/
theorem getBalance_credits (payments : List ValidatorPayout) (addr : Address) :
    ((payments.foldl Snapshot.credit s).getBalance addr).toNat =
      ((s.getBalance addr).toNat + received payments addr) % 2 ^ 64 := by
  induction payments generalizing s with
  | nil => simp [received, amounts, Nat.mod_eq_of_lt (UInt64.toNat_lt _)]
  | cons p payments ih =>
    rw [List.foldl_cons, ih, getBalance_credit, received_cons]
    split
    · rw [UInt64.toNat_add, Nat.mod_add_mod, Nat.add_assoc]
    · rw [Nat.zero_add]

/-- The payouts go to pairwise distinct active voters. -/
theorem validators_rewards (s : Snapshot) (fee : FeeBreakdown) (voters : List Address) :
    ((rewards s fee voters).map (·.validator)).Nodup ∧
      ∀ p ∈ rewards s fee voters, p.validator ∈ voters ∧ s.isActiveValidator p.validator = true := by
  have hsub : ((rewards s fee voters).map (·.validator)).Sublist
      ((voterStakes s voters).toList.map (·.1)) := by
    rw [← map_validator_dues fee.validatorReward (totalVoterStake s voters) 0]
    exact List.filter_sublist.map _
  constructor
  · refine List.Nodup.sublist hsub ?_
    rw [List.nodup_iff_pairwise_ne, List.pairwise_map]
    exact (voterStakes s voters).distinct_keys_toList.imp fun hne heq =>
      hne (LawfulEqCmp.compare_eq_iff_eq.mpr heq)
  · intro p hp
    obtain ⟨e, he, haddr⟩ := List.mem_map.mp (hsub.subset (List.mem_map_of_mem hp))
    obtain ⟨hvoter, hactive⟩ := mem_voterStakes.mp he
    rw [← haddr]
    exact ⟨hvoter, isActiveValidator_of_activeStake hactive⟩

theorem amounts_rewards_iff (hstake : totalVoterStake s voters ≠ 0) :
    amounts (rewards s fee voters) = fee.validatorReward.toNat ↔
      ((voterStakes s voters).toList.dropLast.map fun e =>
        (fee.validatorReward * e.2 / totalVoterStake s voters).toNat).sum ≤
          fee.validatorReward.toNat := by
  have hne : (voterStakes s voters).toList ≠ [] := by
    intro hnil
    refine hstake (UInt64.toNat_inj.mp ?_)
    have hzero : (voters.map (weight s)).sum = 0 := by
      refine List.sum_eq_zero fun w hw => ?_
      obtain ⟨addr, haddr, rfl⟩ := List.mem_map.mp hw
      cases hactive : activeStake s addr with
      | none => simp [weight, hactive]
      | some stake =>
        have hmem : (addr, stake) ∈ (voterStakes s voters).toList :=
          mem_voterStakes.mpr ⟨haddr, hactive⟩
        rw [hnil] at hmem
        cases hmem
    rw [toNat_totalVoterStake (by omega), hzero]
    rfl
  obtain ⟨init, last, hL⟩ := (List.eq_nil_or_concat' _).resolve_left hne
  rw [rewards, paid, amounts_filter, hL, List.dropLast_concat]
  exact amounts_dues_iff

/-- A refusal after the first payment leaves the first payee's balance changed. -/
theorem credits_ne {done rest : List ValidatorPayout} {q p : ValidatorPayout}
    (h : rewards s fee voters ++ treasuryPayment cp fee = q :: done ++ p :: rest) :
    (q :: done).foldl Snapshot.credit s ≠ s := by
  have hlen : (q :: done).length ≤ (rewards s fee voters).length := by
    have := congrArg List.length h
    have hone : (treasuryPayment cp fee).length ≤ 1 := by
      unfold treasuryPayment
      split <;> simp
    simp only [List.length_append, List.length_cons] at this ⊢
    omega
  have hinitial : q :: done <+: rewards s fee voters :=
    List.prefix_of_prefix_length_le ⟨p :: rest, h.symm⟩ (List.prefix_append _ _) hlen
  have hnodup := (validators_rewards s fee voters).1.sublist (hinitial.sublist.map _)
  rw [List.map_cons, List.nodup_cons] at hnodup
  have hpos : 0 < q.amount.toNat := by
    have := List.of_mem_filter (hinitial.subset (List.mem_cons_self ..))
    simpa [UInt64.lt_iff_toNat_lt] using this
  intro heq
  have hbalance := getBalance_credits (s := s) (q :: done) q.validator
  rw [heq, received_cons, if_pos rfl, received_eq_zero hnodup.1] at hbalance
  have := (s.getBalance q.validator).toNat_lt
  have := q.amount.toNat_lt
  omega

/-- What is minted is the fee in full if and only if nothing wraps. -/
theorem feeMinted_iff (hstake : totalVoterStake s voters ≠ 0)
    (hcap : ¬ s.totalSupply + (fee.validatorReward + fee.treasuryAmount) > cp.maxSupply) :
    FeeMinted cp s fee voters (rewards s fee voters)
        (((rewards s fee voters ++ treasuryPayment cp fee).foldl Snapshot.credit s).recordBurn
          fee.burnAmount) ↔
      MintsFit cp s fee voters := by
  have hbalance := getBalance_credits (s := s) (rewards s fee voters ++ treasuryPayment cp fee)
  have hburn := totalBurned_credits (s := s) (rewards s fee voters ++ treasuryPayment cp fee)
  constructor
  · intro h
    refine ⟨h.supply ▸ UInt64.toNat_lt _, (amounts_rewards_iff hstake).mp h.rewards,
      fun p _ => ?_, h.burned ▸ UInt64.toNat_lt _⟩
    have heq := h.balances p.validator
    rw [Nat.add_assoc, ← received_append] at heq
    exact heq ▸ UInt64.toNat_lt _
  · intro h
    have hrewards := (amounts_rewards_iff hstake).mpr h.shares
    have hall := amounts_payments cp hrewards
    have hroom := room_of_mintFits hcap h.supply
    have hsupply := totalSupply_credits s (rewards s fee voters ++ treasuryPayment cp fee)
      (by have := h.supply; omega)
    refine ⟨hrewards, (validators_rewards s fee voters).1, (validators_rewards s fee voters).2,
      fun addr => ?_, ?_, ?_, ?_⟩
    · rw [Nat.add_assoc, ← received_append]
      refine (hbalance addr).trans (Nat.mod_eq_of_lt ?_)
      by_cases hmem : addr ∈ (rewards s fee voters ++ treasuryPayment cp fee).map (·.validator)
      · obtain ⟨p, hp, rfl⟩ := List.mem_map.mp hmem
        exact h.balances p hp
      · rw [received_eq_zero hmem]
        exact UInt64.toNat_lt _
    · show (List.foldl Snapshot.credit s _).totalSupply.toNat = _
      omega
    · show (List.foldl Snapshot.credit s _).totalSupply ≤ _
      rw [UInt64.le_iff_toNat_le]
      omega
    · show ((List.foldl Snapshot.credit s _).totalBurned + fee.burnAmount).toNat = _
      rw [hburn, toNat_add_of_fits h.burned]
end

def withStakes (stakes : List (Address × UInt64)) (supply : UInt64) : Snapshot :=
  { validators := stakes.foldl (fun m e => m.insert e.1 ⟨e.1, e.2, 0, 0, 0, 0, true, 0, []⟩) ∅
    totalSupply := supply }

def capped (maxSupply : UInt64) : ChainParams := { ChainParams.ofGenesis Devnet.genesis with maxSupply := maxSupply }

def tenFee : FeeBreakdown := ⟨10, 7, 2, 1⟩

def Outranked (s : Snapshot) (voters : List Address) (addr : Address) : Prop :=
  ∃ b ∈ voters, (activeStake s b).isSome = true ∧ addr < b

instance (s : Snapshot) (voters : List Address) (addr : Address) : Decidable (Outranked s voters addr) :=
  decidable_of_iff (voters.any fun b => (activeStake s b).isSome && decide (addr < b)) (by simp [Outranked])

/-- Of the active voters, all but the one with the greatest address are paid by the quotient; their
    products with the reward do not wrap. -/
def SharesFit (s : Snapshot) (fee : FeeBreakdown) (voters : List Address) : Prop :=
  ∀ addr ∈ voters, ∀ stake ∈ activeStake s addr, Outranked s voters addr →
    fee.validatorReward.toNat * stake.toNat < 2 ^ 64

instance (s : Snapshot) (fee : FeeBreakdown) (voters : List Address) : Decidable (SharesFit s fee voters) :=
  decidable_of_iff (voters.all fun addr => (activeStake s addr).all fun stake =>
      decide (Outranked s voters addr → fee.validatorReward.toNat * stake.toNat < 2 ^ 64)) (by
    simp only [SharesFit, List.all_eq_true, Option.all_eq_true, decide_eq_true_eq, Option.mem_def])

theorem received_of_mem {l : List ValidatorPayout} (hn : (l.map (·.validator)).Nodup) {p : ValidatorPayout} (hp : p ∈ l) :
    received (l.filter (0 < ·.amount)) p.validator = p.amount.toNat := by
  have hone : l.filter (·.validator = p.validator) = [p] := by
    induction l with
    | nil => cases hp
    | cons a l ih =>
      rw [List.map_cons, List.nodup_cons] at hn
      rcases List.mem_cons.mp hp with rfl | hp
      · rw [List.filter_cons_of_pos (by simp), List.filter_eq_nil_iff.mpr]
        intro b hb
        simp only [decide_eq_true_eq]
        exact fun heq => hn.1 (heq ▸ List.mem_map_of_mem hb)
      · have hne : a.validator ≠ p.validator := fun heq => hn.1 (heq ▸ List.mem_map_of_mem hp)
        rw [List.filter_cons_of_neg (by simpa using hne), ih hn.2 hp]
  unfold received
  rw [List.filter_filter, List.filter_congr (fun a _ => Bool.and_comm _ _), ← List.filter_filter, amounts_filter, hone]
  simp [amounts]

theorem sum_floors {r total : Nat} (hpos : 0 < total) (l : List Nat) : (l.map (r * · / total)).sum * total ≤ r * l.sum ∧
      r * l.sum + l.length ≤ ((l.map (r * · / total)).sum + l.length) * total := by
  induction l with
  | nil => simp
  | cons a l ih =>
    obtain ⟨hle, hge⟩ := ih
    have hdown := Nat.div_mul_le_self (r * a) total
    have hup := Nat.lt_div_mul_add (a := r * a) hpos
    have hsplit : ∀ q rest k, (q + rest + (k + 1)) * total = q * total + total + (rest + k) * total := by
      intro q rest k
      rw [← Nat.succ_mul, ← Nat.add_mul]
      congr 1
      omega
    simp only [List.map_cons, List.sum_cons, List.length_cons]
    rw [Nat.mul_add, hsplit, Nat.add_mul]
    omega

section
variable {cp : ChainParams} {s s' : Snapshot} {fee : FeeBreakdown} {voters : List Address}

theorem distributeFees_ok {payouts : List ValidatorPayout}
    (h : distributeFees cp fee voters s = (.ok payouts, s')) :
    (fee.totalFee = 0 ∧ payouts = []) ∨
      (totalVoterStake s voters ≠ 0 ∧ payouts = rewards s fee voters) := by
  by_cases hfee : fee.totalFee = 0
  · simp only [distributeFees, if_pos hfee] at h
    cases h
    exact .inl ⟨hfee, rfl⟩
  by_cases hstake : totalVoterStake s voters = 0
  · simp only [distributeFees, if_neg hfee, if_pos hstake] at h
    cases h
  by_cases hover : s.totalSupply + (fee.validatorReward + fee.treasuryAmount) > cp.maxSupply
  · simp only [distributeFees, if_neg hfee, if_neg hstake, if_pos hover] at h
    cases h
  rcases hmints : mints cp (rewards s fee voters ++ treasuryPayment cp fee) s with ⟨_ | _, s₁⟩
  · obtain ⟨e, heq⟩ := (distributeFees_mints hfee hstake hover hmints).2 rfl
    rw [heq] at h
    cases h
  · rw [(distributeFees_mints hfee hstake hover hmints).1 rfl] at h
    cases h
    exact .inr ⟨hstake, rfl⟩

theorem distributeFees_perm {voters' : List Address} (h : voters'.Perm voters) :
    distributeFees cp fee voters' s = distributeFees cp fee voters s := by
  have hstakes : voterStakes s voters' = voterStakes s voters := by
    refine ExtTreeMap.ext_getElem? fun addr => ?_
    rw [getElem?_voterStakes, getElem?_voterStakes]
    simp only [h.mem_iff]
  have htotal : totalVoterStake s voters' = totalVoterStake s voters := by
    have hcomm : RightCommutative fun (sum : UInt64) (addr : Address) =>
        (activeStake s addr).elim sum fun stake => sum + stake := by
      refine ⟨fun sum a b => ?_⟩
      cases activeStake s a with
      | none => rfl
      | some x =>
        cases activeStake s b with
        | none => rfl
        | some y =>
          show sum + x + y = sum + y + x
          rw [UInt64.add_assoc, UInt64.add_comm x, ← UInt64.add_assoc]
    exact h.foldl_eq 0
  unfold distributeFees
  rw [hstakes, htotal]

theorem voterStakes_sorted (s : Snapshot) (voters : List Address) :
    (voterStakes s voters).toList.Pairwise fun e e' => e.1 < e'.1 :=
  (voterStakes s voters).ordered_keys_toList.imp fun h => compareOfLessAndEq_eq_lt.mp h

theorem length_voterStakes (hset : voters.Nodup) :
    (voterStakes s voters).toList.length = voters.countP fun b => (activeStake s b).isSome := by
  rw [(voterStakes_perm s voters).length_eq, hset.dedup, List.length_filterMap_eq_countP]
  simp

section Shares

variable {reward total : UInt64} {init : List (Address × UInt64)} {last : Address × UInt64}

theorem nodup_dues {L : List (Address × UInt64)} (hsorted : L.Pairwise fun e e' => e.1 < e'.1) :
    ((dues reward total L 0).map (·.validator)).Nodup := by
  rw [map_validator_dues, List.nodup_iff_pairwise_ne, List.pairwise_map]
  exact hsorted.imp fun hlt heq => absurd hlt (by rw [heq]; exact BitVec.lt_irrefl _)

theorem received_earlier (hsorted : (init ++ [last]).Pairwise fun e e' => e.1 < e'.1)
    {e : Address × UInt64} (he : e ∈ init) :
    received (paid reward total (init ++ [last]) 0) e.1 =
      reward.toNat * e.2.toNat % 2 ^ 64 / total.toNat := by
  have hdue : (⟨e.1, reward * e.2 / total⟩ : ValidatorPayout) ∈
      dues reward total (init ++ [last]) 0 := by
    rw [dues_concat]
    exact List.mem_append_left _ (List.mem_map_of_mem he)
  rw [paid, received_of_mem (nodup_dues hsorted) hdue, UInt64.toNat_div, UInt64.toNat_mul]

theorem received_last (hsorted : (init ++ [last]).Pairwise fun e e' => e.1 < e'.1) (hpos : 0 < total.toNat)
    (hsum : ((init ++ [last]).map (·.2.toNat)).sum = total.toNat)
    (hfits : ∀ e ∈ init, reward.toNat * e.2.toNat < 2 ^ 64) : received (paid reward total (init ++ [last]) 0) last.1 +
      ((init.map (·.2.toNat)).map (reward.toNat * · / total.toNat)).sum = reward.toNat := by
  have hwhole : amounts (dues reward total (init ++ [last]) 0) = reward.toNat := amounts_dues (by simp) hpos hsum.le
  have hothers : ((init.map fun e => (⟨e.1, reward * e.2 / total⟩ : ValidatorPayout)).map (·.amount.toNat)).sum =
      ((init.map (·.2.toNat)).map (reward.toNat * · / total.toNat)).sum := by
    rw [List.map_map, List.map_map]
    exact congrArg List.sum (List.map_congr_left fun e he => toNat_mul_div (hfits e he))
  have hnodup : ((dues reward total (init ++ [last]) 0).map (·.validator)).Nodup := nodup_dues hsorted
  unfold paid
  rw [dues_concat] at hwhole hnodup ⊢
  rw [received_of_mem hnodup (List.mem_append_right _ (List.mem_singleton_self _))]
  rw [amounts, List.map_append, List.sum_append, hothers, List.map_singleton, List.sum_singleton] at hwhole
  rw [Nat.add_comm]
  exact hwhole

theorem received_last_bounds (hsorted : (init ++ [last]).Pairwise fun e e' => e.1 < e'.1) (hpos : 0 < total.toNat)
    (hsum : ((init ++ [last]).map (·.2.toNat)).sum = total.toNat)
    (hfits : ∀ e ∈ init, reward.toNat * e.2.toNat < 2 ^ 64) :
    reward.toNat * last.2.toNat / total.toNat ≤ received (paid reward total (init ++ [last]) 0) last.1 ∧
      received (paid reward total (init ++ [last]) 0) last.1 <
        reward.toNat * last.2.toNat / total.toNat + (init ++ [last]).length := by
  have hrest := received_last hsorted hpos hsum hfits
  obtain ⟨hle, hlt⟩ := sum_floors (r := reward.toNat) hpos ((init ++ [last]).map (·.2.toNat))
  rw [hsum] at hle hlt
  replace hle := Nat.le_of_mul_le_mul_right hle hpos
  replace hlt := Nat.lt_of_mul_lt_mul_right (Nat.lt_of_lt_of_le (Nat.lt_add_of_pos_right (by simp)) hlt)
  rw [List.map_append, List.map_append, List.sum_append] at hle hlt
  simp only [List.map_cons, List.map_nil, List.sum_cons, List.sum_nil, Nat.add_zero, List.length_append, List.length_map,
    List.length_cons, List.length_nil] at hle hlt
  rw [List.length_append, List.length_singleton]
  omega

theorem outranked_iff (hL : (voterStakes s voters).toList = init ++ [last]) {e : Address × UInt64} (he : e ∈ init ++ [last]) :
    Outranked s voters e.1 ↔ e ∈ init := by
  have hsorted := hL ▸ voterStakes_sorted s voters
  have hbefore : ∀ e ∈ init, e.1 < last.1 := fun e he =>
    (List.pairwise_append.mp hsorted).2.2 e he last (List.mem_singleton_self _)
  constructor
  · rintro ⟨b, hb, hsome, hlt⟩
    refine (List.mem_append.mp he).resolve_right fun hlast => ?_
    rw [List.mem_singleton.mp hlast] at hlt
    obtain ⟨x, hx⟩ := Option.isSome_iff_exists.mp hsome
    have hmem : (b, x) ∈ init ++ [last] := hL ▸ mem_voterStakes.mpr ⟨hb, hx⟩
    rcases List.mem_append.mp hmem with h | h
    · exact absurd (BitVec.lt_trans hlt (hbefore _ h)) (BitVec.lt_irrefl _)
    · rw [← List.mem_singleton.mp h] at hlt
      exact absurd hlt (BitVec.lt_irrefl _)
  · intro hinit
    have hlast : last ∈ (voterStakes s voters).toList := hL ▸ List.mem_append_right _ (List.mem_singleton_self _)
    obtain ⟨hvoter, hstaked⟩ := mem_voterStakes.mp hlast
    exact ⟨last.1, hvoter, by rw [hstaked]; rfl, hbefore e hinit⟩
end Shares

/-- The voters in the order of their addresses, with the total over the naturals. -/
theorem voterStakes_split (hstakes : stakes s < 2 ^ 64) (hset : voters.Nodup) {addr : Address}
    {stake : UInt64} (haddr : addr ∈ voters) (hactive : activeStake s addr = some stake) :
    ∃ init last, (voterStakes s voters).toList = init ++ [last] ∧ (addr, stake) ∈ init ++ [last] ∧
      ((init ++ [last]).map (·.2.toNat)).sum = (totalVoterStake s voters).toNat ∧
      (totalVoterStake s voters).toNat = (voters.map (weight s)).sum := by
  have htotal := toNat_totalVoterStake
    (Nat.lt_of_le_of_lt (sum_weight_le_stakes (s := s) hset) hstakes)
  have hmem : (addr, stake) ∈ (voterStakes s voters).toList := mem_voterStakes.mpr ⟨haddr, hactive⟩
  obtain ⟨init, last, hL⟩ := (List.eq_nil_or_concat' _).resolve_left (List.ne_nil_of_mem hmem)
  have hsum := sum_voterStakes s voters
  rw [hset.dedup, ← htotal] at hsum
  exact ⟨init, last, hL, hL ▸ hmem, hL ▸ hsum, htotal⟩

/-- What an outranked voter gets: the product wraps before the division. -/
theorem received_outranked (fee : FeeBreakdown) (hstakes : stakes s < 2 ^ 64) (hset : voters.Nodup)
    {addr : Address} {stake : UInt64} (haddr : addr ∈ voters)
    (hactive : activeStake s addr = some stake) (houtranked : Outranked s voters addr) :
    received (rewards s fee voters) addr =
      fee.validatorReward.toNat * stake.toNat % 2 ^ 64 / (voters.map (weight s)).sum := by
  obtain ⟨init, last, hL, hmem, -, htotal⟩ := voterStakes_split hstakes hset haddr hactive
  have hsorted := hL ▸ voterStakes_sorted s voters
  rw [← htotal, rewards, hL]
  exact received_earlier hsorted ((outranked_iff hL hmem).mp houtranked)

theorem received_greatest (hstakes : stakes s < 2 ^ 64) (hset : voters.Nodup)
    (hstake : totalVoterStake s voters ≠ 0) (hfits : SharesFit s fee voters) {addr : Address}
    {stake : UInt64} (haddr : addr ∈ voters) (hactive : activeStake s addr = some stake)
    (hgreatest : ¬ Outranked s voters addr) :
    fee.validatorReward.toNat * stake.toNat / (voters.map (weight s)).sum ≤
        received (rewards s fee voters) addr ∧
      received (rewards s fee voters) addr <
        fee.validatorReward.toNat * stake.toNat / (voters.map (weight s)).sum +
          voters.countP fun b => (activeStake s b).isSome := by
  obtain ⟨init, last, hL, hmem, hsum, htotal⟩ := voterStakes_split hstakes hset haddr hactive
  have hsorted := hL ▸ voterStakes_sorted s voters
  have hpos : 0 < (totalVoterStake s voters).toNat :=
    Nat.pos_of_ne_zero fun h => hstake (UInt64.toNat_inj.mp h)
  have hshares : ∀ e ∈ init, fee.validatorReward.toNat * e.2.toNat < 2 ^ 64 := by
    intro e he
    have hlist : e ∈ init ++ [last] := List.mem_append_left _ he
    obtain ⟨hvoter, hstaked⟩ := mem_voterStakes.mp (hL ▸ hlist)
    exact hfits e.1 hvoter e.2 hstaked ((outranked_iff hL hlist).mpr he)
  have hlast := (List.mem_append.mp hmem).resolve_left fun hinit =>
    hgreatest ((outranked_iff hL hmem).mpr hinit)
  rw [← htotal, ← length_voterStakes hset, rewards, hL]
  rw [← List.mem_singleton.mp hlast] at hsorted hsum ⊢
  exact received_last_bounds hsorted hpos hsum hshares
end

/-- The payouts are in proportion to the stakes: each active voter but the one with the greatest
    address gets its share rounded down, and that one at least its own and less than a unit per
    voter more. -/
structure Proportional (s : Snapshot) (reward : UInt64) (voters : List Address)
    (payouts : List ValidatorPayout) : Prop where
  floor : ∀ addr ∈ voters, ∀ stake, activeStake s addr = some stake → Outranked s voters addr →
    received payouts addr = reward.toNat * stake.toNat / (voters.map (weight s)).sum
  rest : ∀ addr ∈ voters, ∀ stake, activeStake s addr = some stake → ¬ Outranked s voters addr →
    reward.toNat * stake.toNat / (voters.map (weight s)).sum ≤ received payouts addr ∧
      received payouts addr < reward.toNat * stake.toNat / (voters.map (weight s)).sum +
        voters.countP fun b => (activeStake s b).isSome

/-- **When rewards are in proportion to the stakes**: exactly if no outranked voter's product of
    reward and stake reaches 2^64. A wrapped product is always seen in the quotient, since the
    divisor is below 2^64. The order of the voters never matters. -/
theorem rewards_proportional (cp : ChainParams) (s : Snapshot) (fee : FeeBreakdown)
    (voters : List Address) (payouts : List ValidatorPayout) (hstakes : stakes s < 2 ^ 64)
    (hset : voters.Nodup) (hminted : (distributeFees cp fee voters s).1 = .ok payouts)
    (hfull : amounts payouts = fee.validatorReward.toNat) :
    (Proportional s fee.validatorReward voters payouts ∧
      ∀ voters', voters'.Perm voters →
        distributeFees cp fee voters' s = distributeFees cp fee voters s) ↔
    SharesFit s fee voters := by
  rcases distributeFees_ok (Prod.ext hminted rfl) with ⟨-, rfl⟩ | ⟨hstake, rfl⟩
  · -- nothing is minted, and the reward is nothing
    have hzero : fee.validatorReward.toNat = 0 := hfull.symm
    have hone : ∀ addr ∈ voters, ∀ stake, activeStake s addr = some stake →
        0 < voters.countP fun b => (activeStake s b).isSome := by
      intro addr haddr stake hactive
      rw [List.countP_pos_iff]
      exact ⟨addr, haddr, by rw [hactive]; rfl⟩
    refine iff_of_true ⟨⟨fun _ _ _ _ _ => ?_, fun addr haddr stake hactive _ => ?_⟩,
      fun _ => distributeFees_perm⟩ fun _ _ _ _ _ => ?_
    · simp [hzero, received, amounts]
    · simpa [hzero, received, amounts] using hone addr haddr stake hactive
    · simp [hzero]
  · have hsum := toNat_totalVoterStake
      (Nat.lt_of_le_of_lt (sum_weight_le_stakes (s := s) hset) hstakes)
    have hpos : 0 < (voters.map (weight s)).sum :=
      hsum ▸ Nat.pos_of_ne_zero fun h => hstake (UInt64.toNat_inj.mp h)
    have hlt : (voters.map (weight s)).sum ≤ 2 ^ 64 := hsum ▸ (UInt64.toNat_lt _).le
    constructor
    · rintro ⟨hprop, -⟩ addr haddr stake hactive houtranked
      rw [← mod_div_eq_iff hpos hlt,
        ← received_outranked fee hstakes hset haddr hactive houtranked]
      exact hprop.floor addr haddr stake hactive houtranked
    · intro hfits
      refine ⟨⟨fun addr haddr stake hactive houtranked => ?_, fun _ haddr _ hactive =>
        received_greatest hstakes hset hstake hfits haddr hactive⟩, fun _ => distributeFees_perm⟩
      rw [received_outranked fee hstakes hset haddr hactive houtranked, mod_div_eq_iff hpos hlt]
      exact hfits addr haddr stake hactive houtranked

theorem rewards_proportional_three :
    Proportional (withStakes [(1, 5), (2, 9), (3, 4)] 100) 7 [3, 2, 1] [⟨1, 1⟩, ⟨2, 3⟩, ⟨3, 3⟩] :=
  ((rewards_proportional (capped 1000) (withStakes [(1, 5), (2, 9), (3, 4)] 100) tenFee [3, 2, 1]
    [⟨1, 1⟩, ⟨2, 3⟩, ⟨3, 3⟩] (by decide +kernel) (by decide +kernel) (by decide +kernel)
    (by decide +kernel)).mpr (by decide +kernel)).1

/-- **With the amounts of the default genesis the product wraps**: of a reward of one token to two
    validators with the minimum stake, the first one gets 0.03883139 and not one half. -/
theorem rewards_not_proportional : (distributeFees (capped 100000000000000000) ⟨100000000, 100000000, 0, 0⟩ [1, 2]
      (withStakes [(1, 1000000000000), (2, 1000000000000)] 50000000000000000)).1 = .ok [⟨1, 3883139⟩, ⟨2, 96116861⟩] ∧
      100000000 * 1000000000000 / (1000000000000 + 1000000000000) = 50000000 :=
  ⟨by decide +kernel, by norm_num⟩

end LinkMint.Chain
