import LinkMint.Chain.Env

/-!
# The rule engine

`internal/rules`.
-/

namespace LinkMint.Chain

structure EvalContext where
  action : ActionKind
  blockTimestamp : Int64
  sender : Address
  receiver : Address := 0
  amount : UInt64
  transferCount : UInt64 := 0
  approvals : List Address := []

variable (env : Env)

/-! ## Evaluation -/

def evalTimeLock (params : Bytes) (ctx : EvalContext) : Except String Unit := do
  let p ← env.decode.timeLock params
  if ctx.action ∉ p.actions then .ok ()
  else if p.notBefore > 0 ∧ ctx.blockTimestamp < p.notBefore then
    .error s!"action not allowed before {p.notBefore} (current: {ctx.blockTimestamp})"
  else if p.notAfter > 0 ∧ ctx.blockTimestamp > p.notAfter then
    .error s!"action not allowed after {p.notAfter} (current: {ctx.blockTimestamp})"
  else .ok ()

def evalMultiApproval (params : Bytes) (ctx : EvalContext) : Except String Unit := do
  let p ← env.decode.multiApproval params
  if ctx.action ≠ .settle then .ok ()
  else
    let count := ctx.approvals.countP (· ∈ p.approvers)
    if count < p.required.toNat then .error s!"need {p.required} approvals, have {count}"
    else .ok ()

def evalAmountThreshold (params : Bytes) (ctx : EvalContext) : Except String Unit := do
  let p ← env.decode.amountThreshold params
  if p.minAmount > 0 ∧ ctx.amount < p.minAmount then
    .error s!"amount below minimum: {ctx.amount} < {p.minAmount}"
  else if p.maxAmount > 0 ∧ ctx.amount > p.maxAmount then
    .error s!"amount above maximum: {ctx.amount} > {p.maxAmount}"
  else .ok ()

def evalAddressWhitelist (params : Bytes) (ctx : EvalContext) : Except String Unit := do
  let p ← env.decode.addressWhitelist params
  if ctx.action ∉ p.actions then .ok ()
  else if ctx.sender ∈ p.addresses then .ok ()
  else .error s!"address {hex ctx.sender} not in whitelist"

def evalReceiverWhitelist (params : Bytes) (ctx : EvalContext) : Except String Unit := do
  let p ← env.decode.receiverWhitelist params
  if ctx.action ≠ .transfer then .ok ()
  else if ctx.receiver ∈ p.addresses then .ok ()
  else .error s!"receiver {hex ctx.receiver} not in whitelist"

def evalMaxTransfers (params : Bytes) (ctx : EvalContext) : Except String Unit := do
  let p ← env.decode.maxTransfers params
  if ctx.action ≠ .transfer then .ok ()
  else if ctx.transferCount ≥ p.max then
    .error s!"max transfers reached: {ctx.transferCount} >= {p.max}"
  else .ok ()

def evaluateOne (rule : Rule) (ctx : EvalContext) : Except String Unit :=
  match rule.type with
  | .timeLock => evalTimeLock env rule.params ctx
  | .multiApproval => evalMultiApproval env rule.params ctx
  | .amountThreshold => evalAmountThreshold env rule.params ctx
  | .addressWhitelist => evalAddressWhitelist env rule.params ctx
  | .receiverWhitelist => evalReceiverWhitelist env rule.params ctx
  | .maxTransfers => evalMaxTransfers env rule.params ctx
  | .other text => .error s!"unknown rule type: {text}"

/-- The loop of `Evaluate` and of `ValidateRules`: the first objection, prefixed with the rule's position. -/
def checkEach (check : Rule → Except String Unit) (label : Nat → Rule → String) : Nat → List Rule → Except String Unit
  | _, [] => .ok ()
  | i, rule :: rest =>
    match check rule with
    | .error e => .error s!"{label i rule}: {e}"
    | .ok () => checkEach check label (i + 1) rest

def evaluate (ruleSet : List Rule) (ctx : EvalContext) : Except String Unit :=
  checkEach (evaluateOne env · ctx) (fun i rule => s!"rule[{i}] {rule.type.string}") 0 ruleSet

/-! ## Well-formedness, checked at creation -/

def validateOne (rule : Rule) : Except String Unit :=
  match rule.type with
  | .timeLock => do
    let p ← env.decode.timeLock rule.params
    if p.actions.length = 0 then .error "TimeLock: actions list must not be empty" else .ok ()
  | .multiApproval => do
    let p ← env.decode.multiApproval rule.params
    if p.required = 0 then .error "MultiApproval: required must be > 0"
    else if p.approvers.length < p.required.toNat then
      .error (s!"MultiApproval: fewer approvers ({p.approvers.length}) than " ++ s!"required ({p.required})")
    else .ok ()
  | .amountThreshold => do
    let p ← env.decode.amountThreshold rule.params
    if p.minAmount > 0 ∧ p.maxAmount > 0 ∧ p.minAmount > p.maxAmount then
      .error s!"AmountThreshold: minAmount ({p.minAmount}) > maxAmount ({p.maxAmount})"
    else .ok ()
  | .addressWhitelist => do
    let p ← env.decode.addressWhitelist rule.params
    if p.addresses.length = 0 then .error "AddressWhitelist: addresses must not be empty"
    else if p.actions.length = 0 then .error "AddressWhitelist: actions must not be empty"
    else .ok ()
  | .receiverWhitelist => do
    let p ← env.decode.receiverWhitelist rule.params
    if p.addresses.length = 0 then .error "ReceiverWhitelist: addresses must not be empty"
    else .ok ()
  | .maxTransfers => do
    let p ← env.decode.maxTransfers rule.params
    if p.max = 0 then .error "MaxTransfers: max must be > 0" else .ok ()
  | .other text => .error s!"unknown rule type: {text}"

def validateRules (ruleSet : List Rule) : Except String Unit :=
  checkEach (validateOne env) (fun i _ => s!"rule[{i}]") 0 ruleSet

/-! ## The executor's entry points -/

def jsonNull : Bytes := [110, 117, 108, 108]

/-- No rules attached: nothing there, or a JSON `null`. -/
def noRules (raw : Bytes) : Bool := raw.length == 0 || raw == jsonNull

def evaluateRules (pl : PayLink) (ctx : EvalContext) : Except String Unit :=
  if noRules pl.rules then .ok ()
  else match env.decode.rules pl.rules with
    | .error e => .error s!"corrupt rules: {e}"
    | .ok ruleSet => evaluate env ruleSet ctx

def checkNewRules (raw : Bytes) : Except String Unit :=
  if noRules raw then .ok ()
  else match env.decode.rules raw with
    | .error e => .error s!"invalid rules: {e}"
    | .ok ruleSet =>
      match validateRules env ruleSet with
      | .error e => .error s!"invalid rules: {e}"
      | .ok () => .ok ()

end LinkMint.Chain
