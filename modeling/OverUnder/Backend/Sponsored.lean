/-
Module: OverUnder.Backend.Sponsored
Purpose: `POST /aa/cdp-send` of `backend/app/aa/router.py`, up to what it hands to the sponsor, with
  `hex_to_bytes` of `backend/app/aa/bundler.py` and `trading_halt_reason` of
  `backend/app/markets/trading.py`. The ABI decoding of a listing, checksummed addresses and what
  Python takes from the Unicode database are parameters; an absent setting is the empty text.
Trusted boundary: human-reviewed spec
Main exports: hexToBytes, validateCall, tradeConditionId, tradingHaltReason, requirePreparedListing,
  prepareCall, cdpSend
-/
import Mathlib
import OverUnder.Backend.Auth
import OverUnder.Backend.ListingGates
import OverUnder.Vyper.Abi

namespace OverUnder.Backend.Sponsored

open OverUnder.Vyper

/-! ### Texts and bytes -/

def hexDigits : Text :=
  ['0', '1', '2', '3', '4', '5', '6', '7', '8', '9', 'a', 'b', 'c', 'd', 'e', 'f']

/-- `bytes.hex`. -/
def hexOf (bytes : List Byte) : Text :=
  bytes.flatMap fun b => [hexDigits.getD (b.toNat / 16) '0', hexDigits.getD (b.toNat % 16) '0']

def zeroX (text : Text) : Text := '0' :: 'x' :: text

/-- `text.removeprefix("0x")`. -/
def removeZeroX : Text → Text
  | '0' :: 'x' :: rest => rest
  | text => text

/-- The white space that `bytes.fromhex` skips between bytes. -/
def isAsciiSpace (c : Char) : Bool := [' ', '\t', '\n', '\r', '\x0b', '\x0c'].contains c

/-- `bytes.fromhex`; none is a `ValueError`. -/
def fromHex : Text → Option (List Byte)
  | [] => some []
  | [c] => if isAsciiSpace c then some [] else none
  | c :: d :: rest =>
      if isAsciiSpace c then fromHex (d :: rest)
      else
        match hexDigits.idxOf? c.toLower, hexDigits.idxOf? d.toLower with
        | some high, some low => (fromHex rest).map (BitVec.ofNat 8 (high * 16 + low) :: ·)
        | _, _ => none

/-- `hex_to_bytes`. -/
def hexToBytes (value : Text) : Option (List Byte) :=
  let raw := removeZeroX value
  if raw = [] then some []
  else fromHex (if raw.length % 2 = 1 then '0' :: raw else raw)

/-- The text of an address, as `_extract_address` returns it. -/
def addressText (n : Nat) : Text := zeroX (hexOf (natToBytes 20 n))

/-- The text of a condition id. -/
def cidText (n : Nat) : Text := zeroX (hexOf (natToBytes 32 n))

/-! ### Requests and rows -/

def selectorApprove : Nat := 0x095ea7b3
def selectorSetApproval : Nat := 0xa22cb465
def selectorBuyUsdc : Nat := 0xa9c98025
def selectorSellUsdc : Nat := 0xd4bd65f0
def selectorMatchOrders : Nat := 0xe9f2cd3e
def selectorCreatePermissionless : Nat := 0x4e7d1a32

/-- `CdpCall`; `target` is its `to`, and `value` is what `_value_int` makes of it, none being a
`ValueError`. -/
structure CdpCall where
  target : Text
  data : Text
  value : Option Int

/-- The settings the endpoint reads. -/
structure Settings where
  ammAddress : Text
  usdcAddress : Text
  ctfAddress : Text
  factoryAddress : Text
  tradingHaltAtClose : Bool

/-- What is read of a market; no close time is 0. -/
structure Market where
  conditionId : Text
  resolved : Bool
  paused : Bool
  marketType : Int
  closeTime : Int

/-- What is read of a listing. -/
structure Listing where
  conditionId : Text
  creator : Text
  salt : Text
  status : Text
  question : Text
  criteriaHash : Text
  closeTime : Int
  seedUsdc : Int

structure Db where
  markets : List Market
  listings : List Listing

structure User where
  address : Text
  cdpUserId : Text

/-- `_listing_args`. -/
structure ListingArgs where
  salt : Text
  closeTime : Int
  question : Text
  criteriaHash : Text
  seedUsdc : Int

def hexChars : Text := 'x' :: hexDigits

/-- The parameters of the endpoint: `Web3.to_checksum_address` and `eth_abi.decode` may raise, and
Python's `lower` and `strip` leave lower-case hex texts alone. -/
structure Site where
  unicode : Unicode
  checksum : Text → Option Text
  decodeListing : List Byte → Option ListingArgs
  lower_hex : ∀ text, (∀ c ∈ text, c ∈ hexChars) → unicode.lower text = text
  space_hex : ∀ c ∈ hexChars, unicode.isSpace c = false

variable (site : Site) (settings : Settings) (db : Db) (now : Int) (user : User)

def Site.lower (text : Text) : Text := site.unicode.lower text

/-! ### The checks -/

/-- `call_data[:4]`, compared as a number; `_validate_call` has asked for four bytes. -/
def selectorOf (callData : List Byte) : Nat := bytesToNat (callData.take 4)

/-- `_extract_address` at an offset that holds a word. -/
def extractAddress (callData : List Byte) (offset : Nat) : Text :=
  addressText (bytesToNat ((callData.drop offset).take 32) % 2 ^ 160)

/-- `_validate_call`. -/
def validateCall (target : Text) (callData : List Byte) (value : Int) : Bool :=
  let selector := selectorOf callData
  let target := site.lower target
  let amm := site.lower settings.ammAddress
  let usdc := site.lower settings.usdcAddress
  let ctf := site.lower settings.ctfAddress
  let factory := site.lower settings.factoryAddress
  if value ≠ 0 then false
  else if callData.length < 4 then false
  else if selector = selectorMatchOrders then false
  else if amm = [] then false
  else if target = usdc ∧ selector = selectorApprove then
    if callData.length < 36 then false
    else
      let spender := site.lower (extractAddress callData 4)
      decide (spender = amm ∨ factory ≠ [] ∧ spender = factory)
  else if target = ctf ∧ selector = selectorSetApproval then
    if callData.length < 36 then false
    else decide (site.lower (extractAddress callData 4) = amm)
  else if target = amm ∧ (selector = selectorBuyUsdc ∨ selector = selectorSellUsdc) then true
  else decide (factory ≠ [] ∧ target = factory ∧ selector = selectorCreatePermissionless)

/-- `_trade_condition_id`. -/
def tradeConditionId (target : Text) (callData : List Byte) : Option Text :=
  let amm := site.lower settings.ammAddress
  if amm = [] ∨ site.lower target ≠ amm ∨ callData.length < 36 then none
  else if selectorOf callData = selectorBuyUsdc ∨ selectorOf callData = selectorSellUsdc then
    some (zeroX (hexOf ((callData.drop 4).take 32)))
  else none

/-- `_listing_args`: no listing, or one that may fail to decode. -/
def listingArgs (target : Text) (callData : List Byte) : Except HttpError (Option ListingArgs) :=
  let factory := site.lower settings.factoryAddress
  if factory = [] ∨ site.lower target ≠ factory ∨
      selectorOf callData ≠ selectorCreatePermissionless then
    .ok none
  else
    match site.decodeListing (callData.drop 4) with
    | none => .error ⟨400, "Invalid call data"⟩
    | some args => .ok (some args)

/-- `MARKET_TYPE_USER`. -/
def marketTypeUser : Int := 2

/-- `norm_cid`. -/
def normCid (cid : Text) : Text := zeroX (removeZeroX (site.lower (strip site.unicode cid)))

def Db.market (cid : Text) : Option Market := db.markets.find? fun m => m.conditionId = cid

def Db.listing (cid : Text) : Option Listing := db.listings.find? fun l => l.conditionId = cid

/-- `halts_at`. -/
def haltsAt (m : Market) : Option Int :=
  if !settings.tradingHaltAtClose || m.closeTime == 0 then none else some m.closeTime

/-- The part of `trading_halt_reason` after the market was found. -/
def haltReason (m : Market) : Option String :=
  if m.resolved then some "market resolved"
  else if m.marketType = marketTypeUser ∧
      (db.listing m.conditionId).map Listing.status ≠ some "confirmed".toList then
    some "listing not confirmed"
  else if (haltsAt settings m).any fun at' => decide (at' ≤ now) then some "market closed"
  else if m.paused then some "market paused"
  else none

/-- `trading_halt_reason`. -/
def tradingHaltReason (cid : Text) : Option String :=
  match db.market (normCid site cid) with
  | none => none
  | some m => haltReason settings db now m

/-- `_require_prepared_listing`. -/
def requirePreparedListing (args : ListingArgs) : Except HttpError Unit :=
  let prepared := db.listings.find? fun row => row.creator = site.lower user.address &&
    row.salt = args.salt && row.status = "prepared".toList
  match prepared with
  | none => .error ⟨403, "listing not prepared"⟩
  | some row =>
      if row.question ≠ args.question ∨ site.lower row.criteriaHash ≠ args.criteriaHash ∨
          row.closeTime ≠ args.closeTime ∨ row.seedUsdc ≠ args.seedUsdc then
        .error ⟨403, "listing differs from the prepared listing"⟩
      else .ok ()

/-! ### The endpoint -/

/-- A call as it is handed on; `target` is its `to`. -/
structure PayloadCall where
  target : Text
  value : Text
  data : Text
deriving DecidableEq

/-- What the loop over the calls takes from one of them. -/
structure Prepared where
  payload : PayloadCall
  tradeCid : Option Text
  listing : Option ListingArgs

/-- A turn of the loop; an address without a checksum is an error nobody catches. -/
def prepareCall (call : CdpCall) : Except HttpError Prepared :=
  match call.value, hexToBytes call.data with
  | some value, some data =>
      if validateCall site settings call.target data value then
        match listingArgs site settings call.target data, site.checksum call.target with
        | .error e, _ => .error e
        | .ok _, none => .error ⟨500, "Internal Server Error"⟩
        | .ok listing, some target =>
            let dataHex := if ['0', 'x'].isPrefixOf call.data then call.data else zeroX call.data
            .ok ⟨⟨target, ['0'], dataHex⟩, tradeConditionId site settings call.target data, listing⟩
      else .error ⟨403, "Operation not allowed"⟩
  | _, _ => .error ⟨400, "Invalid call data"⟩

/-- What is handed to `send_user_operation`. -/
structure Sent where
  userId : Text
  address : Text
  calls : List PayloadCall
deriving DecidableEq

/-- The halts of the markets traded, each asked once, in the order of the calls. -/
def checkHalts (prepared : List Prepared) : Except HttpError Unit :=
  (prepared.filterMap Prepared.tradeCid).eraseDups.forM fun cid =>
    match tradingHaltReason site settings db now cid with
    | none => .ok ()
    | some reason => .error ⟨409, reason⟩

/-- `cdp_send`. -/
def cdpSend (calls : List CdpCall) : Except HttpError Sent := do
  if calls = [] then .error ⟨400, "calls required"⟩
  else
    let prepared ← calls.mapM (prepareCall site settings)
    checkHalts site settings db now prepared
    (prepared.filterMap Prepared.listing).forM (requirePreparedListing site db user)
    if user.cdpUserId = [] then .error ⟨403, "CDP user required"⟩
    else
      match site.checksum user.address with
      | none => .error ⟨400, "Invalid smart account"⟩
      | some sender => .ok ⟨user.cdpUserId, sender, prepared.map Prepared.payload⟩

end OverUnder.Backend.Sponsored
