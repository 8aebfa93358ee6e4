/-
Module: OverUnder.Backend.Ramps
Purpose: The fiat gate of `backend/app/kyc/router.py` and the MoonPay sessions and webhooks of
  `backend/app/ramps/router.py`, over the rows of `ramp_txs` and `kyc_records`. Amounts are
  exact decimals, which the gate reads as floats and adds from left to right, as Python 3.11 of
  the Dockerfile does; the signed URL is the wallet and the amount it locks.
Trusted boundary: human-reviewed spec
Main exports: Settings, RampTx, Db, Lists, enforceKycGate, moonpaySession, moonpayWebhook,
  Event, State, Step
-/
import Mathlib
import OverUnder.Backend.Auth
import OverUnder.Library.Floating

namespace OverUnder.Backend.Ramps

open OverUnder.Library

structure Settings where
  moonpayApiKey : String
  moonpaySecret : String
  kycThresholdUsdc : Rat
  /-- Split at the commas, stripped, in capitals and without empty entries. -/
  kycRestrictedJurisdictions : List String

/-- A row of `kyc_records`. -/
structure KycRecord where
  status : String
  jurisdiction : String

/-- A row of `ramp_txs`; the amount is the number that its text spells. -/
structure RampTx where
  address : String
  amount : Rat
  providerId : String
  status : String
  createdAt : Nat

structure Db where
  kycRecords : String → Option KycRecord
  rampTxs : List RampTx

/-- `timedelta(days=1)` in microseconds. -/
def oneDay : Nat := 86400000000

/-- `MAX_SESSION_USDC`. -/
def maxSessionUsdc : Rat := 1000000

namespace RampTx

/-- `RampTx.status.in_(["completed", "success"])`. -/
def completed (tx : RampTx) : Bool :=
  decide (tx.status = "completed") || decide (tx.status = "success")

/-- The `WHERE` clause of the volume query. -/
def counts (address : String) (now : Nat) (tx : RampTx) : Bool :=
  decide (tx.address = address) && decide (now - oneDay ≤ tx.createdAt) && tx.completed

end RampTx

/-- `recent_txs` may be what the volume query lists: the query asks for no order. -/
def Lists (db : Db) (address : String) (now : Nat) (recentTxs : List RampTx) : Prop :=
  recentTxs.Perm (db.rampTxs.filter (RampTx.counts address now))

/-- `sum(float(tx.amount) for tx in recent_txs)`. -/
def dailyVolume (recentTxs : List RampTx) : Rat :=
  Floating.sum (recentTxs.map fun tx => Floating.round tx.amount)

/-- `is_restricted`. -/
def isRestricted (settings : Settings) : Option KycRecord → Bool
  | none => false
  | some record => decide (record.jurisdiction ≠ "") &&
      decide (record.jurisdiction.toUpper ∈ settings.kycRestrictedJurisdictions)

/-- `enforce_kyc_gate` of a float, with the rows that the volume query lists. -/
def enforceKycGate (settings : Settings) (db : Db) (recentTxs : List RampTx) (notionalUsdc : Rat)
    (address : String) : Except HttpError Unit :=
  if notionalUsdc ≤ 0 then
    .error ⟨400, "Invalid amount"⟩
  else
    let kycRecord := db.kycRecords address
    let totalVolume := Floating.round (dailyVolume recentTxs + notionalUsdc)
    if totalVolume ≥ settings.kycThresholdUsdc ∨ isRestricted settings kycRecord = true then
      match kycRecord with
      | none =>
          .error ⟨403, "KYC required but not started. Complete KYC verification to proceed."⟩
      | some record =>
          if record.status = "pass" ∨ record.status = "not_required" then
            .ok ()
          else
            .error ⟨403, "KYC verification required. Current status: " ++ record.status⟩
    else
      .ok ()

/-- What the signed widget URL fixes. -/
structure Widget where
  walletAddress : String
  baseCurrencyAmount : Rat
deriving DecidableEq

/-- `Decimal.normalize`, which keeps 28 digits. -/
def normalize (x : Rat) : Rat := Floating.roundTo (10 ^ (Int.log 10 |x| - 27)) x

/-- `moonpay_session`, with `parse_usdc_amount` at its head. -/
def moonpaySession (settings : Settings) (db : Db) (recentTxs : List RampTx) (usdcAmount : Rat)
    (address : String) : Except HttpError Widget :=
  if settings.moonpayApiKey = "" ∨ settings.moonpaySecret = "" then
    .error ⟨503, "MoonPay not configured"⟩
  else if usdcAmount ≤ 0 ∨ usdcAmount > maxSessionUsdc then
    .error ⟨400, "Invalid amount"⟩
  else
    match enforceKycGate settings db recentTxs (Floating.round usdcAmount) address with
    | .error refused => .error refused
    | .ok () => .ok ⟨address, normalize usdcAmount⟩

/-- The payload, with the number that the text of `cryptoAmount` spells. -/
structure Payload where
  externalTransactionId : String
  walletAddress : String
  cryptoAmount : Rat
  status : String

/-- An existing row gets the new status and amount only. -/
def upsert (rows : List RampTx) (payload : Payload) (now : Nat) : List RampTx :=
  if rows.any (fun tx => decide (tx.providerId = payload.externalTransactionId)) then
    rows.map fun tx =>
      if tx.providerId = payload.externalTransactionId then
        { tx with status := payload.status, amount := payload.cryptoAmount }
      else tx
  else
    rows ++ [⟨payload.walletAddress, payload.cryptoAmount, payload.externalTransactionId,
      payload.status, now⟩]

/-- `moonpay_webhook`; `signed` is the comparison of the two signatures. -/
def moonpayWebhook (settings : Settings) (db : Db) (signed : Bool) (payload : Payload)
    (now : Nat) : Except HttpError Db :=
  if settings.moonpaySecret = "" then
    .error ⟨503, "MoonPay not configured"⟩
  else if signed = false then
    .error ⟨401, "Invalid signature"⟩
  else if payload.externalTransactionId.length ≤ 255 ∧ payload.walletAddress.length ≤ 42 ∧
      payload.status.length ≤ 32 then
    .ok { db with rampTxs := upsert db.rampTxs payload now }
  else
    .error ⟨400, "Invalid webhook payload"⟩

/-! ### The backend and the provider over time -/

/-- A session as the provider knows it: its transaction, what was locked, and since when. -/
structure Session where
  id : String
  widget : Widget
  openedAt : Nat

structure State where
  db : Db
  sessions : List Session

/-- Nothing was bought yet. -/
def State.initial : State := ⟨⟨fun _ => none, []⟩, []⟩

/-- The row of a session's transaction. -/
def State.row (w : State) (s : Session) : Option RampTx :=
  w.db.rampTxs.find? fun tx => decide (tx.providerId = s.id)

inductive Event where
  | session (address : String) (usdcAmount : Rat) (now : Nat) (id : String)
  | webhook (s : Session) (walletAddress : String) (cryptoAmount : Rat) (status : String)
      (now : Nat)
  | kyc (address : String) (record : Option KycRecord)

/-- A request that succeeds. The provider reports the amount that was locked, at any time after
the session was opened, and spells the wallet as it likes; the payload is parsed to a float, whose
text reads back as that float. Records change behind the gate. -/
inductive Step (settings : Settings) (w : State) : Event → State → Prop where
  | session {address : String} {usdcAmount : Rat} {now : Nat} {id : String} {widget : Widget}
      {recentTxs : List RampTx} (fresh : ∀ s ∈ w.sessions, s.id ≠ id)
      (lists : Lists w.db address now recentTxs)
      (done : moonpaySession settings w.db recentTxs usdcAmount address = .ok widget) :
      Step settings w (.session address usdcAmount now id)
        { w with sessions := w.sessions ++ [⟨id, widget, now⟩] }
  | webhook {s : Session} {walletAddress : String} {cryptoAmount : Rat} {status : String}
      {now : Nat} {db : Db} (opened : s ∈ w.sessions) (later : s.openedAt ≤ now)
      (reported : Floating.round cryptoAmount = Floating.round s.widget.baseCurrencyAmount)
      (done : moonpayWebhook settings w.db true
        ⟨s.id, walletAddress, cryptoAmount, status⟩ now = .ok db) :
      Step settings w (.webhook s walletAddress cryptoAmount status now) { w with db }
  | kyc {address : String} {record : Option KycRecord} :
      Step settings w (.kyc address record)
        { w with db := { w.db with
          kycRecords := Function.update w.db.kycRecords address record } }

end OverUnder.Backend.Ramps
