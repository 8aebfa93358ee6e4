/-
Module: OverUnder.Proofs.SponsoredBatches
Purpose: What a batch that `POST /aa/cdp-send` hands to the sponsor can do when it is executed: each
  call carries no value, is of one of five functions, and means what was checked once the contract
  it goes to has decoded it.
Trusted boundary: none
Main exports: natToBytes_bytesToNat, hexToBytes_prefixed, Tradable, Permitted, prepareCall_spec,
  sponsored_batch
-/
import Mathlib
import OverUnder.Backend.Sponsored

namespace OverUnder.Backend.Sponsored

open OverUnder.Vyper

variable {site : Site} {settings : Settings} {db : Db} {now : Int} {user : User}

/-! ### Words and their texts -/

/-- Writing out the number that bytes stand for gives the bytes back. -/
theorem natToBytes_bytesToNat (bytes : List Byte) :
    natToBytes bytes.length (bytesToNat bytes) = bytes := by
  induction bytes using List.reverseRecOn with
  | nil => rfl
  | append_singleton bytes last ih =>
      have low : last.toNat < 256 := last.isLt
      rw [List.length_append, List.length_singleton, bytesToNat_append_single]
      unfold natToBytes
      have high : (bytesToNat bytes * 256 + last.toNat) / 256 = bytesToNat bytes := by omega
      rw [high, ih]
      congr 2
      apply BitVec.eq_of_toNat_eq
      rw [BitVec.toNat_ofNat]
      omega

theorem abiWord_zero_drop {callData : List Byte} {n : Nat}
    (word : abiWord (callData.drop 4) 0 = some n) :
    36 ≤ callData.length ∧ bytesToNat ((callData.drop 4).take 32) = n := by
  rcases abiWord_eq_some.mp word with ⟨long, same⟩
  rw [List.length_drop] at long
  exact ⟨by omega, same⟩

theorem cidText_word {callData : List Byte} {n : Nat} (long : 36 ≤ callData.length)
    (same : bytesToNat ((callData.drop 4).take 32) = n) :
    zeroX (hexOf ((callData.drop 4).take 32)) = cidText n := by
  have size : ((callData.drop 4).take 32).length = 32 := by
    rw [List.length_take, List.length_drop]
    omega
  have written := natToBytes_bytesToNat ((callData.drop 4).take 32)
  rw [size] at written
  rw [cidText, ← same, written]

/-- The text of bytes is of lower-case hex digits. -/
theorem hexOf_chars (bytes : List Byte) : ∀ c ∈ zeroX (hexOf bytes), c ∈ hexChars := by
  have digit : ∀ n, n < 16 → hexDigits.getD n '0' ∈ hexChars := by decide
  intro c here
  rcases List.mem_cons.mp here with rfl | here
  · decide
  rcases List.mem_cons.mp here with rfl | here
  · decide
  rcases List.mem_flatMap.mp here with ⟨b, _, here⟩
  have low := b.isLt
  rcases List.mem_cons.mp here with rfl | here
  · exact digit _ (by omega)
  · rw [List.mem_singleton.mp here]
    exact digit _ (by omega)

theorem lower_hexOf (bytes : List Byte) : site.lower (zeroX (hexOf bytes)) = zeroX (hexOf bytes) :=
  site.lower_hex _ (hexOf_chars bytes)

/-- A condition id in lower-case hex is its own key. -/
theorem normCid_hexOf (bytes : List Byte) :
    normCid site (zeroX (hexOf bytes)) = zeroX (hexOf bytes) := by
  have visible : ∀ c ∈ zeroX (hexOf bytes), site.unicode.isSpace c = false :=
    fun c here => site.space_hex c (hexOf_chars bytes c here)
  have front : (zeroX (hexOf bytes)).dropWhile site.unicode.isSpace = zeroX (hexOf bytes) := by
    rw [List.dropWhile_eq_self_iff]
    intro nonempty
    rw [visible _ (List.getElem_mem ..)]
    exact Bool.false_ne_true
  have back : (zeroX (hexOf bytes)).rdropWhile site.unicode.isSpace = zeroX (hexOf bytes) := by
    rw [List.rdropWhile_eq_self_iff]
    intro nonempty
    rw [visible _ (List.getLast_mem ..)]
    exact Bool.false_ne_true
  unfold normCid strip
  rw [front, back, lower_hexOf]
  rfl

/-- Handing the data on with the prefix changes none of its bytes. -/
theorem hexToBytes_prefixed (data : Text) :
    hexToBytes (if ['0', 'x'].isPrefixOf data then data else zeroX data) = hexToBytes data := by
  split
  · rfl
  · rename_i bare
    have same : removeZeroX data = data := by
      unfold removeZeroX
      split
      · rename_i rest
        exact absurd (by simp [List.isPrefixOf]) bare
      · rfl
    unfold hexToBytes
    rw [same]
    rfl

/-! ### What a call may do -/

/-- A market that the database knows is open for sponsored trades. -/
structure Tradable (settings : Settings) (db : Db) (now : Int) (m : Market) : Prop where
  unresolved : m.resolved = false
  unpaused : m.paused = false
  confirmed : m.marketType = marketTypeUser →
    ∃ l, db.listing m.conditionId = some l ∧ l.status = "confirmed".toList
  before_close : settings.tradingHaltAtClose = true → m.closeTime ≠ 0 → now < m.closeTime

/-- The row of a listing that its creator prepared, with what the call lists. -/
structure PreparedAs (site : Site) (user : User) (args : ListingArgs) (row : Listing) : Prop where
  creator : row.creator = site.lower user.address
  salt : row.salt = args.salt
  prepared : row.status = "prepared".toList
  question : row.question = args.question
  criteria : site.lower row.criteriaHash = args.criteriaHash
  closeTime : row.closeTime = args.closeTime
  seed : row.seedUsdc = args.seedUsdc

/-- What the contract that a call goes to can make of its data: the function is one of five, and
what its first arguments decode to is what was checked. -/
inductive Permitted (site : Site) (settings : Settings) (db : Db) (now : Int) (user : User)
    (target : Text) (callData : List Byte) : Prop where
  | approve (token : site.lower target = site.lower settings.usdcAddress)
      (function : selectorOf callData = selectorApprove)
      (spends : ∀ types spender values,
        decodeCall selectorApprove (.address :: types) callData = some (.address spender :: values) →
        addressText spender.toNat = site.lower settings.ammAddress ∨
          addressText spender.toNat = site.lower settings.factoryAddress)
  | setApproval (tokens : site.lower target = site.lower settings.ctfAddress)
      (function : selectorOf callData = selectorSetApproval)
      (moves : ∀ types operator values,
        decodeCall selectorSetApproval (.address :: types) callData =
          some (.address operator :: values) →
        addressText operator.toNat = site.lower settings.ammAddress)
  | trade (amm : site.lower target = site.lower settings.ammAddress)
      (function : selectorOf callData = selectorBuyUsdc ∨ selectorOf callData = selectorSellUsdc)
      (trades : ∀ types cid values,
        decodeCall (selectorOf callData) (.uint256 :: types) callData =
          some (.uint256 cid :: values) →
        ∀ m, db.market (cidText cid) = some m → Tradable settings db now m)
  | list (factory : site.lower target = site.lower settings.factoryAddress)
      (function : selectorOf callData = selectorCreatePermissionless)
      (lists : ∃ args row, site.decodeListing (callData.drop 4) = some args ∧ row ∈ db.listings ∧
        PreparedAs site user args row)

theorem tradable_of_haltReason {m : Market} (open' : haltReason settings db now m = none) :
    Tradable settings db now m := by
  unfold haltReason at open'
  split at open'
  · cases open'
  rename_i unresolved
  split at open'
  · cases open'
  rename_i confirmed
  split at open'
  · cases open'
  rename_i before
  split at open'
  · cases open'
  rename_i unpaused
  constructor
  · simpa using unresolved
  · simpa using unpaused
  · intro isUser
    have status : (db.listing m.conditionId).map Listing.status = some "confirmed".toList := by
      by_contra other
      exact confirmed ⟨isUser, other⟩
    exact Option.map_eq_some_iff.mp status
  · intro halts timed
    simpa [haltsAt, halts, timed] using before

theorem preparedAs_of_required {args : ListingArgs}
    (required : requirePreparedListing site db user args = .ok ()) :
    ∃ row ∈ db.listings, PreparedAs site user args row := by
  unfold requirePreparedListing at required
  dsimp only at required
  split at required
  · cases required
  · rename_i row found
    split at required
    · cases required
    · rename_i same
      have matched := List.find?_some found
      simp only [Bool.and_eq_true, decide_eq_true_eq] at matched
      simp only [not_or, not_not] at same
      exact ⟨row, List.mem_of_find?_eq_some found, matched.1.1, matched.1.2, matched.2, same.1,
        same.2.1, same.2.2.1, same.2.2.2⟩

/-! ### One call -/

/-- The decoded first argument is the word that was checked. -/
theorem decodeCall_head {selector : Nat} {type : AbiType} {types : List AbiType}
    {callData : List Byte} {value : AbiValue} {values : List AbiValue}
    (decoded : decodeCall selector (type :: types) callData = some (value :: values)) :
    decodeArg (callData.drop 4) 0 type = some value := by
  rcases decodeCall_eq_some.mp decoded with ⟨_, args⟩
  rcases decodeArgs_cons.mp args with ⟨value', rest, head, _, same⟩
  cases same
  exact head

theorem extractAddress_decoded {selector : Nat} {types : List AbiType} {callData : List Byte}
    {a : Address} {values : List AbiValue}
    (decoded : decodeCall selector (.address :: types) callData = some (.address a :: values)) :
    extractAddress callData 4 = addressText a.toNat := by
  rcases decodeArg_address.mp (decodeCall_head decoded) with ⟨n, word, fits, same⟩
  cases same
  rw [extractAddress, (abiWord_zero_drop word).2, BitVec.toNat_ofNat]

theorem lower_extractAddress (callData : List Byte) (offset : Nat) :
    site.lower (extractAddress callData offset) = extractAddress callData offset :=
  lower_hexOf _

variable {target : Text} {callData : List Byte} {value : Int}

/-- A call that passed is permitted, where its market and its listing are. -/
theorem permitted_of_validated (valid : validateCall site settings target callData value = true)
    (halts : ∀ cid, tradeConditionId site settings target callData = some cid →
      tradingHaltReason site settings db now cid = none)
    (lists : ∀ args, listingArgs site settings target callData = .ok (some args) →
      ∃ row ∈ db.listings, PreparedAs site user args row)
    (decodes : ∃ listing, listingArgs site settings target callData = .ok listing) :
    Permitted site settings db now user target callData := by
  unfold validateCall at valid
  dsimp only at valid
  split at valid
  · cases valid
  split at valid
  · cases valid
  split at valid
  · cases valid
  split at valid
  · cases valid
  rename_i amm
  split at valid
  · rename_i approves
    split at valid
    · cases valid
    · rw [lower_extractAddress] at valid
      apply Permitted.approve approves.1 approves.2
      intro types spender values decoded
      rw [← extractAddress_decoded decoded]
      exact (of_decide_eq_true valid).imp id And.right
  split at valid
  · rename_i sets
    split at valid
    · cases valid
    · rw [lower_extractAddress] at valid
      apply Permitted.setApproval sets.1 sets.2
      intro types operator values decoded
      rw [← extractAddress_decoded decoded]
      exact of_decide_eq_true valid
  split at valid
  · rename_i trades
    apply Permitted.trade trades.1 trades.2
    intro types cid values decoded m known
    rcases decodeArg_uint256.mp (decodeCall_head decoded) with ⟨n, word, same⟩
    cases same
    rcases abiWord_zero_drop word with ⟨long, number⟩
    have asked : tradeConditionId site settings target callData = some (cidText cid) := by
      unfold tradeConditionId
      dsimp only
      rw [if_neg (by simp [amm, trades.1, long]), if_pos trades.2, cidText_word long number]
    have halted := halts _ asked
    unfold tradingHaltReason at halted
    rw [← cidText_word long number] at halted known
    rw [normCid_hexOf, known] at halted
    exact tradable_of_haltReason halted
  · rcases of_decide_eq_true valid with ⟨some_factory, same, function⟩
    apply Permitted.list same function
    rcases decodes with ⟨listing, decoded⟩
    have read := decoded
    unfold listingArgs at read
    dsimp only at read
    rw [if_neg (by simp [some_factory, same, function])] at read
    split at read
    · cases read
    · rename_i args args_read
      cases read
      rcases lists args decoded with ⟨row, here, prepared⟩
      exact ⟨args, row, args_read, here, prepared⟩

/-- What a turn of the loop has made sure of. -/
structure Turn (site : Site) (settings : Settings) (call : CdpCall) (p : Prepared) : Prop where
  target_read : site.checksum call.target = some p.payload.target
  no_value : p.payload.value = ['0']
  checked : ∃ data, hexToBytes p.payload.data = some data ∧
    validateCall site settings call.target data 0 = true ∧
    p.tradeCid = tradeConditionId site settings call.target data ∧
    listingArgs site settings call.target data = .ok p.listing

theorem prepareCall_spec {call : CdpCall} {p : Prepared}
    (done : prepareCall site settings call = .ok p) : Turn site settings call p := by
  unfold prepareCall at done
  split at done
  · rename_i value data valued read
    split at done
    · rename_i valid
      have none_sent : value = 0 := by
        by_contra some_sent
        simp [validateCall, some_sent] at valid
      subst none_sent
      split at done
      · cases done
      · cases done
      · rename_i listing target args checksummed
        cases done
        exact ⟨checksummed, rfl, data, (hexToBytes_prefixed call.data).trans read, valid, rfl, args⟩
    · cases done
  · cases done

/-! ### The batch -/

theorem forM_ok {α ε : Type} {f : α → Except ε Unit} {items : List α}
    (done : items.forM f = .ok ()) : ∀ a ∈ items, f a = .ok () := by
  induction items with
  | nil =>
      intro a here
      cases here
  | cons first rest ih =>
      change (f first >>= fun _ => rest.forM f) = .ok () at done
      cases now : f first with
      | error e =>
          rw [now] at done
          cases done
      | ok u =>
          rw [now] at done
          intro a here
          rcases List.mem_cons.mp here with rfl | later
          · exact now
          · exact ih done a later

theorem mapM_ok {α β ε : Type} {f : α → Except ε β} {items : List α} {results : List β}
    (done : items.mapM f = .ok results) : ∀ b ∈ results, ∃ a ∈ items, f a = .ok b := by
  induction items generalizing results with
  | nil =>
      cases done
      intro b here
      cases here
  | cons first rest ih =>
      rw [List.mapM_cons] at done
      cases now : f first with
      | error e =>
          rw [now] at done
          cases done
      | ok b =>
          rw [now] at done
          cases later : rest.mapM f with
          | error e =>
              rw [later] at done
              cases done
          | ok bs =>
              rw [later] at done
              cases done
              intro b' here
              rcases List.mem_cons.mp here with rfl | there
              · exact ⟨first, List.mem_cons_self .., now⟩
              · rcases ih later b' there with ⟨a, member, same⟩
                exact ⟨a, List.mem_cons_of_mem _ member, same⟩

theorem cdpSend_ok {calls : List CdpCall} {sent : Sent}
    (done : cdpSend site settings db now user calls = .ok sent) :
    ∃ prepared sender, calls.mapM (prepareCall site settings) = .ok prepared ∧
      checkHalts site settings db now prepared = .ok () ∧
      (prepared.filterMap Prepared.listing).forM (requirePreparedListing site db user) = .ok () ∧
      user.cdpUserId ≠ [] ∧ site.checksum user.address = some sender ∧
      sent = ⟨user.cdpUserId, sender, prepared.map Prepared.payload⟩ := by
  unfold cdpSend at done
  split at done
  · cases done
  cases looped : calls.mapM (prepareCall site settings) with
  | error e =>
      rw [looped] at done
      cases done
  | ok prepared =>
      rw [looped] at done
      cases halts : checkHalts site settings db now prepared with
      | error e =>
          simp only [bind, Except.bind, halts] at done
          cases done
      | ok u =>
          cases listed : (prepared.filterMap Prepared.listing).forM
              (requirePreparedListing site db user) with
          | error e =>
              simp only [bind, Except.bind, halts, listed] at done
              cases done
          | ok u =>
              simp only [bind, Except.bind, halts, listed] at done
              split at done
              · cases done
              rename_i known
              split at done
              · cases done
              · rename_i sender checksummed
                cases done
                exact ⟨prepared, sender, rfl, halts, listed, known, checksummed, rfl⟩

/-- Every batch that is handed on is for the user's own account, and each of its calls goes to an
address the user named, carries no value and does only what is permitted. -/
theorem sponsored_batch {calls : List CdpCall} {sent : Sent}
    (done : cdpSend site settings db now user calls = .ok sent) :
    sent.userId = user.cdpUserId ∧ site.checksum user.address = some sent.address ∧
    ∀ payload ∈ sent.calls, payload.value = ['0'] ∧
      ∃ call ∈ calls, site.checksum call.target = some payload.target ∧
        ∃ data, hexToBytes payload.data = some data ∧
          Permitted site settings db now user call.target data := by
  rcases cdpSend_ok done with ⟨prepared, sender, looped, halts, listed, _, checksummed, rfl⟩
  refine ⟨rfl, checksummed, ?_⟩
  intro payload here
  rcases List.mem_map.mp here with ⟨p, member, rfl⟩
  rcases mapM_ok looped p member with ⟨call, asked, turn⟩
  rcases prepareCall_spec turn with ⟨target, value, data, read, valid, cid, listing⟩
  refine ⟨value, call, asked, target, data, read, ?_⟩
  apply permitted_of_validated valid
  · intro cid' traded
    have member' : cid' ∈ (prepared.filterMap Prepared.tradeCid).eraseDups :=
      List.mem_eraseDups.mpr (List.mem_filterMap.mpr ⟨p, member, cid.trans traded⟩)
    have halted := forM_ok halts cid' member'
    split at halted
    · assumption
    · cases halted
  · intro args same
    rw [listing] at same
    have required := forM_ok listed args
      (List.mem_filterMap.mpr ⟨p, member, Except.ok.inj same⟩)
    exact preparedAs_of_required required
  · exact ⟨p.listing, listing⟩

theorem hexChars_lower : ∀ c ∈ hexChars, c.toLower = c := by simp [hexChars, hexDigits]

/-- ASCII texts, and addresses of digits alone, which are their own checksums. -/
def Site.sample : Site where
  unicode := {
    isSpace := fun c => c == ' '
    isWord := Char.isAlphanum
    lower := List.map Char.toLower }
  checksum text := some text
  decodeListing _ := none
  lower_hex text hex := by
    have same : text.map Char.toLower = text.map id :=
      List.map_congr_left fun c here => hexChars_lower c (hex c here)
    exact same.trans (List.map_id text)
  space_hex := by simp [hexChars, hexDigits]

def sampleAddress (digit : Char) : Text := zeroX (List.replicate 40 digit)

def Settings.sample : Settings :=
  ⟨sampleAddress '1', sampleAddress '2', sampleAddress '3', sampleAddress '4', true⟩

def Db.sample : Db := ⟨[⟨cidText 5, false, false, 0, 2000⟩], []⟩

def User.sample : User := ⟨sampleAddress '9', "user".toList⟩

/-- An approval of the pool, and a purchase in the market. -/
def CdpCall.sample : List CdpCall :=
  [⟨sampleAddress '2', "0x095ea7b3".toList ++ List.replicate 24 '0' ++ List.replicate 40 '1' ++
      List.replicate 64 '0', some 0⟩,
    ⟨sampleAddress '1', "a9c98025".toList ++ List.replicate 63 '0' ++ ['5'] ++
      List.replicate 192 '0', some 0⟩]

def Sent.sample : Sent :=
  ⟨"user".toList, sampleAddress '9',
    [⟨sampleAddress '2', ['0'], "0x095ea7b3".toList ++ List.replicate 24 '0' ++
        List.replicate 40 '1' ++ List.replicate 64 '0'⟩,
      ⟨sampleAddress '1', ['0'], "0xa9c98025".toList ++ List.replicate 63 '0' ++ ['5'] ++
        List.replicate 192 '0'⟩]⟩

theorem sample_sponsored_batch :
    cdpSend .sample .sample .sample 1000 .sample CdpCall.sample = .ok Sent.sample ∧
      ∀ payload ∈ Sent.sample.calls, payload.value = ['0'] ∧
        ∃ call ∈ CdpCall.sample, Site.sample.checksum call.target = some payload.target ∧
          ∃ data, hexToBytes payload.data = some data ∧
            Permitted .sample .sample .sample 1000 .sample call.target data := by
  have done : cdpSend .sample .sample .sample 1000 .sample CdpCall.sample = .ok Sent.sample := by
    decide +kernel
  exact ⟨done, (sponsored_batch done).2.2⟩

end OverUnder.Backend.Sponsored
