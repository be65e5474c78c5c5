import LinkMint.Compliance.Activity
import LinkMint.Orchestrator.Payment

/-!
# Payments in the activity ledger

The orchestrator's payload of `payment.initiated` names no user, and the consumer drops an event
without one: no payment reaches the ledger, and the counts and sums of a risk evaluation are
those of no payments at all.
-/

namespace LinkMint.Compliance.Intake

open LinkMint.Lib LinkMint.Orchestrator

def Delivery.Announces (format : Orchestrator.Time → String) (d : Delivery) (p : Payment) : Prop :=
  d.name = eventPaymentInitiated ∧ d.payload = p.payload format

structure AtLeastOnce (format : Orchestrator.Time → String) (payments : List Payment) (deliveries : List Delivery) :
    Prop where
  each : ∀ p ∈ payments, ∃ d ∈ deliveries, d.Announces format p
  only : ∀ d ∈ deliveries, ∃ p ∈ payments, d.Announces format p

theorem get_user_id_payload (format : Orchestrator.Time → String) (p : Payment) :
    Payload.get (p.payload format) "user_id" = none := by
  simp [Payload.get, Payment.payload]

theorem handle_announced {py : Python} {format : Orchestrator.Time → String} {d : Delivery} {p : Payment}
    (h : d.Announces format p) : handle py d.name d.payload = none := by
  rw [h.1, h.2]
  simp [handle, handlePaymentInitiated, get_user_id_payload]

theorem ledger_eq_nil {py : Python} {format : Orchestrator.Time → String} {payments : List Payment}
    {deliveries : List Delivery} (h : AtLeastOnce format payments deliveries) : ledger py deliveries = [] := by
  apply List.filterMap_eq_nil_iff.mpr
  intro d hd
  obtain ⟨p, -, hannounces⟩ := h.only d hd
  rw [handle_announced hannounces]

/-- **The ledger has one row per payment only if there is no payment**, however the events are delivered; the counts and
    sums it gives are zero. -/
theorem aml_ledger_complete_iff (py : Python) (format : Orchestrator.Time → String) (payments : List Payment)
    (deliveries : List Delivery) (h : AtLeastOnce format payments deliveries) :
    ((ledger py deliveries).length = payments.length ↔ payments = []) ∧
      ∀ user since, countActivitySince (ledger py deliveries) user since = 0 ∧
        sumAmountSince (ledger py deliveries) user since = 0 := by
  rw [ledger_eq_nil h]
  constructor
  · constructor
    · intro hlength
      exact List.eq_nil_of_length_eq_zero hlength.symm
    · intro hnone
      rw [hnone]
      rfl
  · intro user since
    exact ⟨rfl, rfl⟩

namespace Sample
def python : Python where
  str
    | .str s => s
    | _ => ""
  uuid s := if s = "6f1c2b9e-0d3a-4c57-9f6e-2d1b8a7c4e50" then some 0x6f1c2b9e0d3a4c579f6e2d1b8a7c4e50 else none
  decimal s := if s = "10" then some 10 else none

def format (_ : Orchestrator.Time) : String := "2026-01-01T00:00:00Z"

def payment : Payment :=
  { id := "0f8fad5b-d9cb-469f-a165-70867728950e"
    payLinkID := "0x0000000000000000000000000000000000000000000000000000000000000001"
    rail := "mpesa", status := .awaitingPayment, createdAt := 0, updatedAt := 0 }

def announced : Delivery :=
  { name := eventPaymentInitiated, payload := payment.payload format, committedAt := some 0 }
end Sample

theorem aml_ledger_complete_iff_redelivered :
    (ledger Sample.python [Sample.announced, Sample.announced]).length = [Sample.payment].length ↔
      [Sample.payment] = [] :=
  (aml_ledger_complete_iff Sample.python Sample.format [Sample.payment] [Sample.announced, Sample.announced]
    ⟨by simp [Delivery.Announces, Sample.announced], by simp [Delivery.Announces, Sample.announced]⟩).1

/-- A payment that is announced once has no row. -/
theorem payment_not_in_ledger : (ledger Sample.python [Sample.announced]).length = 0 ∧ [Sample.payment].length = 1 := by
  decide

end LinkMint.Compliance.Intake
