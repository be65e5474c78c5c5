import LinkMint.Chain.Slashing
import LinkMint.Chain.Rules

/-!
# JSON, up to white space

A payload and the messages inside it (`json.RawMessage`) are kept as bytes, and `json.Marshal` writes such bytes in
compact form, so what comes back from storage is not always what went in.
-/

namespace LinkMint.Chain

variable (compact : Bytes → Bytes)

/-- A decoder that reads texts with one compact form to like values, and does not read the empty text. -/
structure Respects {α : Type} (decode : Bytes → Except String α) (Like : α → α → Prop) : Prop where
  congr : ∀ r r' a, compact r = compact r' → decode r = .ok a → ∃ a', decode r' = .ok a' ∧ Like a a'
  empty : ∀ a, decode [] ≠ .ok a

structure RuleLike (rule rule' : Rule) : Prop where
  type : rule.type = rule'.type
  params : compact rule.params = compact rule'.params

def CreateLike (p p' : CreatePayLinkPayload) : Prop :=
  ∃ rules, p' = { p with rules := rules } ∧ compact p.rules = compact rules

def EvidenceLike (p p' : SubmitEvidencePayload) : Prop :=
  ∃ data, p' = { p with data := data } ∧ compact p.data = compact data

def PayLink.compacted (pl : PayLink) : PayLink := { pl with rules := compact pl.rules }

/-- What `encoding/json` does with white space. -/
structure JsonLaws (env : Env) : Prop where
  idempotent : ∀ r, compact (compact r) = compact r
  nil : compact [] = []
  createPayLink : Respects compact env.decode.createPayLink (CreateLike compact)
  submitValidation : Respects compact env.decode.submitValidation (· = ·)
  cancelPayLink : Respects compact env.decode.cancelPayLink (· = ·)
  failPayLink : Respects compact env.decode.failPayLink (· = ·)
  transfer : Respects compact env.decode.transfer (· = ·)
  stake : Respects compact env.decode.stake (· = ·)
  initiateUnstake : Respects compact env.decode.initiateUnstake (· = ·)
  slash : Respects compact env.decode.slash (· = ·)
  distributeReward : Respects compact env.decode.distributeReward (· = ·)
  registerVRFKey : Respects compact env.decode.registerVRFKey (· = ·)
  submitEvidence : Respects compact env.decode.submitEvidence (EvidenceLike compact)
  transferPayLink : Respects compact env.decode.transferPayLink (· = ·)
  approvePayLink : Respects compact env.decode.approvePayLink (· = ·)
  setApprovalForAll : Respects compact env.decode.setApprovalForAll (· = ·)
  doubleSign : Respects compact env.decode.doubleSign (· = ·)
  equivocation : Respects compact env.decode.equivocation (· = ·)
  rules : Respects compact env.decode.rules (List.Forall₂ (RuleLike compact))
  timeLock : Respects compact env.decode.timeLock (· = ·)
  multiApproval : Respects compact env.decode.multiApproval (· = ·)
  amountThreshold : Respects compact env.decode.amountThreshold (· = ·)
  addressWhitelist : Respects compact env.decode.addressWhitelist (· = ·)
  receiverWhitelist : Respects compact env.decode.receiverWhitelist (· = ·)
  maxTransfers : Respects compact env.decode.maxTransfers (· = ·)
  /-- A `null` with white space around it decodes to no rules. -/
  noRules : ∀ r r', compact r = compact r' → noRules r = true → noRules r' = true ∨ env.decode.rules r' = .ok []
  signable : ∀ type fromAddr nonce r r', compact r = compact r' →
    env.encode.signable type fromAddr nonce r = env.encode.signable type fromAddr nonce r'
  /-- A nil message is written as `null`. -/
  signable_nil : ∀ type fromAddr nonce,
    env.encode.signable type fromAddr nonce [] = env.encode.signable type fromAddr nonce jsonNull
  payLink : ∀ pl pl' : PayLink, pl.compacted compact = pl'.compacted compact →
    env.encode.payLink pl = env.encode.payLink pl'

variable {compact} {env : Env}

theorem Respects.eq {α : Type} {decode : Bytes → Except String α}
    (h : Respects compact decode (· = ·)) {r r' : Bytes} {a : α} (hr : compact r = compact r')
    (ha : decode r = .ok a) : decode r' = .ok a := by
  obtain ⟨a', ha', rfl⟩ := h.congr r r' a hr ha
  exact ha'

theorem Respects.bind_ok {α : Type} {decode : Bytes → Except String α} {f : α → Except String Unit}
    (h : Respects compact decode (· = ·)) {r r' : Bytes} (hr : compact r = compact r')
    (hok : (decode r >>= f) = .ok ()) : (decode r' >>= f) = .ok () := by
  cases ha : decode r with
  | error e =>
    rw [ha] at hok
    cases hok
  | ok a =>
    rw [ha] at hok
    rw [h.eq hr ha]
    exact hok

/-- The shape of `evaluateOne` and `validateOne`: the parameters are decoded by the rule's type, and
    something is asked of them. -/
def askRule (env : Env) (timeLock : TimeLockParams → Except String Unit)
    (multiApproval : MultiApprovalParams → Except String Unit)
    (amountThreshold : AmountThresholdParams → Except String Unit)
    (addressWhitelist : AddressWhitelistParams → Except String Unit)
    (receiverWhitelist : ReceiverWhitelistParams → Except String Unit)
    (maxTransfers : MaxTransfersParams → Except String Unit) (rule : Rule) : Except String Unit :=
  match rule.type with
  | .timeLock => env.decode.timeLock rule.params >>= timeLock
  | .multiApproval => env.decode.multiApproval rule.params >>= multiApproval
  | .amountThreshold => env.decode.amountThreshold rule.params >>= amountThreshold
  | .addressWhitelist => env.decode.addressWhitelist rule.params >>= addressWhitelist
  | .receiverWhitelist => env.decode.receiverWhitelist rule.params >>= receiverWhitelist
  | .maxTransfers => env.decode.maxTransfers rule.params >>= maxTransfers
  | .other text => .error s!"unknown rule type: {text}"

namespace JsonLaws
theorem askRule (laws : JsonLaws compact env) {timeLock : TimeLockParams → Except String Unit}
    {multiApproval : MultiApprovalParams → Except String Unit}
    {amountThreshold : AmountThresholdParams → Except String Unit}
    {addressWhitelist : AddressWhitelistParams → Except String Unit}
    {receiverWhitelist : ReceiverWhitelistParams → Except String Unit}
    {maxTransfers : MaxTransfersParams → Except String Unit} {rule rule' : Rule} (h : RuleLike compact rule rule')
    (hok : Chain.askRule env timeLock multiApproval amountThreshold addressWhitelist
      receiverWhitelist maxTransfers rule = .ok ()) :
    Chain.askRule env timeLock multiApproval amountThreshold addressWhitelist receiverWhitelist
      maxTransfers rule' = .ok () := by
  unfold Chain.askRule at hok ⊢
  rw [← h.type]
  cases hty : rule.type with
  | timeLock =>
    rw [hty] at hok
    exact laws.timeLock.bind_ok h.params hok
  | multiApproval =>
    rw [hty] at hok
    exact laws.multiApproval.bind_ok h.params hok
  | amountThreshold =>
    rw [hty] at hok
    exact laws.amountThreshold.bind_ok h.params hok
  | addressWhitelist =>
    rw [hty] at hok
    exact laws.addressWhitelist.bind_ok h.params hok
  | receiverWhitelist =>
    rw [hty] at hok
    exact laws.receiverWhitelist.bind_ok h.params hok
  | maxTransfers =>
    rw [hty] at hok
    exact laws.maxTransfers.bind_ok h.params hok
  | other text =>
    rw [hty] at hok
    cases hok

theorem evaluateOne (laws : JsonLaws compact env) {rule rule' : Rule} {ctx : EvalContext}
    (h : RuleLike compact rule rule') (hok : Chain.evaluateOne env rule ctx = .ok ()) :
    Chain.evaluateOne env rule' ctx = .ok () :=
  laws.askRule h hok

theorem validateOne (laws : JsonLaws compact env) {rule rule' : Rule}
    (h : RuleLike compact rule rule') (hok : Chain.validateOne env rule = .ok ()) : Chain.validateOne env rule' = .ok () :=
  laws.askRule h hok
end JsonLaws

theorem checkEach_like {check : Rule → Except String Unit} {label label' : Nat → Rule → String}
    (hcheck : ∀ rule rule', RuleLike compact rule rule' → check rule = .ok () →
      check rule' = .ok ()) {rs rs' : List Rule} (h : List.Forall₂ (RuleLike compact) rs rs')
    (i j : Nat) (hok : checkEach check label i rs = .ok ()) : checkEach check label' j rs' = .ok () := by
  induction h generalizing i j with
  | nil => rfl
  | @cons rule rule' rs rs' hrule _ ih =>
    cases hr : check rule with
    | error e =>
      rw [checkEach, hr] at hok
      cases hok
    | ok u =>
      rw [checkEach, hr] at hok
      rw [checkEach, hcheck rule rule' hrule hr]
      exact ih (i + 1) (j + 1) hok

theorem readRules_like (laws : JsonLaws compact env) {check : Rule → Except String Unit}
    (hcheck : ∀ rule rule', RuleLike compact rule rule' → check rule = .ok () →
      check rule' = .ok ()) {label : Nat → Rule → String} {r r' : Bytes}
    (h : compact r = compact r') {rs : List Rule} (hrs : env.decode.rules r = .ok rs)
    (hok : checkEach check label 0 rs = .ok ()) :
    ∃ rs', env.decode.rules r' = .ok rs' ∧ checkEach check label 0 rs' = .ok () := by
  obtain ⟨rs', hrs', hlike⟩ := laws.rules.congr r r' rs h hrs
  exact ⟨rs', hrs', checkEach_like hcheck hlike 0 0 hok⟩

namespace JsonLaws
theorem evaluateRules (laws : JsonLaws compact env) {pl pl' : PayLink} {ctx : EvalContext}
    (h : compact pl.rules = compact pl'.rules) (hok : Chain.evaluateRules env pl ctx = .ok ()) :
    Chain.evaluateRules env pl' ctx = .ok () := by
  unfold Chain.evaluateRules at hok ⊢
  cases hno' : Chain.noRules pl'.rules with
  | true => simp
  | false =>
    cases hno : Chain.noRules pl.rules with
    | true =>
      rcases laws.noRules _ _ h hno with habs | hnil
      · rw [hno'] at habs
        cases habs
      · simp [hnil, evaluate, checkEach]
    | false =>
      cases hrs : env.decode.rules pl.rules with
      | error e => simp [hno, hrs] at hok
      | ok rs =>
        simp only [hno, Bool.false_eq_true, if_false, hrs] at hok
        obtain ⟨rs', hrs', hok'⟩ := readRules_like laws (fun _ _ => laws.evaluateOne) h hrs hok
        simp only [Bool.false_eq_true, if_false, hrs']
        exact hok'

theorem checkNewRules (laws : JsonLaws compact env) {r r' : Bytes} (h : compact r = compact r')
    (hok : Chain.checkNewRules env r = .ok ()) : Chain.checkNewRules env r' = .ok () := by
  unfold Chain.checkNewRules at hok ⊢
  cases hno' : Chain.noRules r' with
  | true => simp
  | false =>
    cases hno : Chain.noRules r with
    | true =>
      rcases laws.noRules _ _ h hno with habs | hnil
      · rw [hno'] at habs
        cases habs
      · simp [hnil, validateRules, checkEach]
    | false =>
      cases hrs : env.decode.rules r with
      | error e => simp [hno, hrs] at hok
      | ok rs =>
        simp only [hno, Bool.false_eq_true, if_false, hrs] at hok
        have hvalid : validateRules env rs = .ok () := by
          split at hok
          · cases hok
          · next h => exact h
        obtain ⟨rs', hrs', hok'⟩ := readRules_like laws (fun _ _ => laws.validateOne) h hrs hvalid
        simp only [Bool.false_eq_true, if_false, hrs']
        show (match validateRules env rs' with | _ => _) = _
        rw [show validateRules env rs' = .ok () from hok']

theorem processEvidence (laws : JsonLaws compact env) {s s' : Snapshot} {ty : EvidenceType}
    {who : Address} {data data' : Bytes} {action : SlashAction}
    (hvalidators : s.validators = s'.validators) (hkeys : s.vrfKeys = s'.vrfKeys) (h : compact data = compact data')
    (hok : Chain.processEvidence env s ty who data = .ok action) :
    Chain.processEvidence env s' ty who data' = .ok action := by
  unfold Chain.processEvidence at hok ⊢
  rw [← hvalidators]
  split at hok
  · cases hok
  · next v hv =>
    split at hok
    · cases hok
    · next hstake =>
      rw [if_neg hstake]
      cases ty with
      | doubleSign =>
        simp only [processDoubleSign] at hok ⊢
        split at hok
        · cases hok
        · next ev hev => rw [laws.doubleSign.eq h hev]; exact hok
      | equivocation =>
        simp only [processEquivocation, ← hkeys] at hok ⊢
        split at hok
        · cases hok
        · next ev hev => rw [laws.equivocation.eq h hev]; exact hok
      | liveness => cases hok
      | other text => cases hok
end JsonLaws
end LinkMint.Chain
