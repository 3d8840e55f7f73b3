import Blive.Adapters.Ib.OpenOrders

/-!
# Reading a contract back

Which instruments the parser of IB's contracts and the resolver agree on. The parser knows the
exchanges of the resolver's table but not the LSE ETF book, and the resolver strips the suffix
of the venue from a symbol each time it is asked.
-/

namespace Blive

/-! ## The contract of an instrument -/

theorem toContract_eq_ok_iff {instrument : Instrument} {contract : Contract} :
    toContract instrument = .ok contract ↔
      instrument.val.tradability = .spot ∧
        ∃ secType, assetClassToSecType instrument.val.assetClass = some secType ∧
          ∃ ibExchange, micToIbExchange instrument.val.venue = some ibExchange ∧
            contract = {
              symbol := ibSymbol instrument
              secType := secType
              currency := instrument.val.currency
              exchange := (routeOf instrument ibExchange).1
              primaryExchange := (routeOf instrument ibExchange).2
              multiplier := if instrument.val.multiplier = 1 then none
                else some instrument.val.multiplier } := by
  unfold toContract
  rw [require_bind_eq_ok_iff]
  simp only [bind_eq_ok_iff, orRaise_eq_ok_iff]
  constructor
  · rintro ⟨hspot, secType, hsecType, ibExchange, hexchange, hcontract⟩
    cases hcontract
    exact ⟨hspot, secType, hsecType, ibExchange, hexchange, rfl⟩
  · rintro ⟨hspot, secType, hsecType, ibExchange, hexchange, rfl⟩
    exact ⟨hspot, secType, hsecType, ibExchange, hexchange, rfl⟩

/-- The asset class a security type is read back as: an ETF comes back as an equity. -/
def AssetClass.readBack : AssetClass → AssetClass
  | .etf => .equity
  | assetClass => assetClass

theorem secTypeToAssetClass_eq {assetClass : AssetClass} {secType : String}
    (h : assetClassToSecType assetClass = some secType) :
    secTypeToAssetClass (.text secType) = assetClass.readBack := by
  cases assetClass <;> cases h <;> decide

/-- The instrument is one of the LSE ETF book. -/
def OnLseEtfBook (instrument : Instrument) : Prop :=
  instrument.val.venue = "XLON" ∧ instrument.val.assetClass = .etf

instance (instrument : Instrument) : Decidable (OnLseEtfBook instrument) :=
  inferInstanceAs (Decidable (_ ∧ _))

/-- The rows of the resolver's table. -/
theorem micToIbExchange_cases {venue ibExchange : String}
    (h : micToIbExchange venue = some ibExchange) :
    (venue, ibExchange) ∈ [("XPAR", "SBF"), ("XNAS", "NASDAQ"), ("XNYS", "NYSE"),
      ("ARCX", "ARCA"), ("BATS", "BATS"), ("XLON", "LSE"), ("XETR", "IBIS")] := by
  obtain ⟨before, after, hrows, -⟩ := List.lookup_eq_some_iff.mp h
  rw [hrows]
  simp

/-- The venues of the resolver's table are read back, but for the LSE ETF book. -/
theorem venue_readBack {instrument : Instrument} {ibExchange : String}
    (h : micToIbExchange instrument.val.venue = some ibExchange) :
    ibExchangeToMic (.text (if (routeOf instrument ibExchange).2 ≠ "" then
        (routeOf instrument ibExchange).2 else (routeOf instrument ibExchange).1)) =
      .text (if OnLseEtfBook instrument then "LSEETF" else instrument.val.venue) := by
  have hrow := micToIbExchange_cases h
  simp only [List.mem_cons, Prod.mk.injEq, List.not_mem_nil, or_false] at hrow
  rcases hrow with ⟨hv, rfl⟩ | ⟨hv, rfl⟩ | ⟨hv, rfl⟩ | ⟨hv, rfl⟩ | ⟨hv, rfl⟩ | ⟨hv, rfl⟩ |
      ⟨hv, rfl⟩ <;>
    cases hc : instrument.val.assetClass <;>
    simp only [routeOf, OnLseEtfBook, hv, hc] <;> decide

/-! ## The symbol -/

/-- `_ib_symbol` on a symbol and a venue. -/
def stripSuffix (venue symbol : String) : String :=
  match yahooSuffixByMic venue with
  | some suffix =>
      if suffix.toList <:+ symbol.toList then
        String.ofList (symbol.toList.take (symbol.toList.length - suffix.toList.length))
      else symbol
  | none => symbol

/-- The symbol ends with the suffix of the venue. -/
def EndsWithSuffix (venue symbol : String) : Prop :=
  ∃ suffix ∈ yahooSuffixByMic venue, suffix.toList <:+ symbol.toList

instance (venue symbol : String) : Decidable (EndsWithSuffix venue symbol) :=
  inferInstanceAs (Decidable (∃ suffix ∈ yahooSuffixByMic venue, _))

theorem ibSymbol_eq (instrument : Instrument) :
    ibSymbol instrument = stripSuffix instrument.val.venue instrument.val.symbol := rfl

theorem stripSuffix_initial (venue symbol : String) :
    (stripSuffix venue symbol).toList <+: symbol.toList := by
  unfold stripSuffix
  split
  · split
    · rw [String.toList_ofList]
      exact List.take_prefix _ _
    · exact List.prefix_rfl
  · exact List.prefix_rfl

/-- No suffix of the table is empty. -/
theorem suffix_ne_nil {venue suffix : String} (h : suffix ∈ yahooSuffixByMic venue) :
    suffix.toList ≠ [] := by
  obtain ⟨before, after, hrows, -⟩ := List.lookup_eq_some_iff.mp h
  have hrow : (venue, suffix) ∈
      [("XPAR", ".PA"), ("XLON", ".L"), ("XETR", ".DE"), ("XAMS", ".AS")] := by
    rw [hrows]
    simp
  simp only [List.mem_cons, Prod.mk.injEq, List.not_mem_nil, or_false] at hrow
  rcases hrow with ⟨-, rfl⟩ | ⟨-, rfl⟩ | ⟨-, rfl⟩ | ⟨-, rfl⟩ <;> decide

/-- A symbol is left alone exactly when it does not end with the suffix of the venue. -/
theorem stripSuffix_eq_self_iff {venue symbol : String} :
    stripSuffix venue symbol = symbol ↔ ¬ EndsWithSuffix venue symbol := by
  unfold stripSuffix EndsWithSuffix
  cases hsuffix : yahooSuffixByMic venue with
  | none => simp
  | some suffix =>
    have hne := suffix_ne_nil hsuffix
    simp only [Option.mem_def, Option.some.injEq, exists_eq_left']
    split
    · rename_i hends
      refine iff_of_false (fun heq => ?_) (not_not.mpr hends)
      have hlength := congrArg (fun s => s.toList.length) heq
      have hpos := List.length_pos_iff.mpr hne
      have hle := hends.length_le
      simp only [String.toList_ofList, List.length_take] at hlength
      omega
    · rename_i hends
      exact iff_of_true rfl hends

/-! ## The instrument that is read back -/

/-- The fields the parser of contracts gives the instrument. -/
def readBackFields (instrument : Instrument) : InstrumentFields where
  symbol := ibSymbol instrument
  venue := if OnLseEtfBook instrument then "LSEETF" else instrument.val.venue
  currency := instrument.val.currency
  assetClass := instrument.val.assetClass.readBack
  multiplier := instrument.val.multiplier

theorem Instrument.currency_ne_empty (instrument : Instrument) : instrument.val.currency ≠ "" := by
  intro hempty
  have hiso := requireIsoCurrency_eq_ok_iff.mp (instrument.iso_currency "")
  rw [hempty] at hiso
  exact absurd hiso.1 (by decide)

/-- The multiplier is read back from the text it is rendered by. -/
theorem multiplierOf_attrs {instrument : Instrument} {contract : Contract} {text : String}
    (h : toContract instrument = .ok contract)
    (htext : ∀ d ∈ contract.multiplier, DecimalValue.ofString text = .ok (.finite d)) :
    (contract.attrs text).multiplierOf = .ok (.finite instrument.val.multiplier) := by
  obtain ⟨-, secType, -, ibExchange, -, rfl⟩ := toContract_eq_ok_iff.mp h
  by_cases hone : instrument.val.multiplier = 1
  · simp [IbContract.multiplierOf, Contract.attrs, hone, IbAttr.orEmpty]
  · have hread : DecimalValue.ofString text = .ok (.finite instrument.val.multiplier) :=
      htext _ (by simp [hone])
    have hne : text ≠ "" := by
      rintro rfl
      have hempty : DecimalValue.ofString "" = .error (.other "InvalidOperation") := by
        decide +kernel
      rw [hempty] at hread
      cases hread
    simp [IbContract.multiplierOf, Contract.attrs, hone, IbAttr.orEmpty, hne,
      IbAttr.decimalText, hread]

theorem instrumentFromContract_attrs {instrument : Instrument} {contract : Contract}
    {text : String} (h : toContract instrument = .ok contract)
    (htext : ∀ d ∈ contract.multiplier, DecimalValue.ofString text = .ok (.finite d)) :
    instrumentFromContract (contract.attrs text) =
      (require (ibSymbol instrument ≠ "") (.ibShapeError "IB Contract has empty symbol") >>=
        fun _ => Frozen.make (.embed (readBackFields instrument))) := by
  have hmultiplier := multiplierOf_attrs h htext
  have hcurrency := instrument.currency_ne_empty
  obtain ⟨-, secType, hsecType, ibExchange, hexchange, rfl⟩ := toContract_eq_ok_iff.mp h
  have hvenue := venue_readBack hexchange
  have hclass := secTypeToAssetClass_eq hsecType
  unfold instrumentFromContract
  rw [hmultiplier]
  have hattrVenue : ∀ contract : Contract, (contract.attrs text).venue = ibExchangeToMic
      (.text (if contract.primaryExchange ≠ "" then contract.primaryExchange
        else contract.exchange)) := by
    intro contract
    simp only [IbContract.venue, Contract.attrs, IbAttr.orEmpty, ne_eq, IbAttr.text.injEq,
      apply_ite IbAttr.text]
  rw [hattrVenue, hvenue]
  simp only [Contract.attrs, IbAttr.orEmpty, ne_eq, IbAttr.text.injEq, hcurrency, hclass]
  rfl

/-! ## Where the two agree -/

/-- Reading back the contract leads to it again: the parser of contracts knows its exchange, and
what is left of the symbol is a symbol that the resolver does not strip again. -/
structure Closes (instrument : Instrument) : Prop where
  known : ¬ OnLseEtfBook instrument
  symbol : ibSymbol instrument ≠ "" ∧ PyStr.isStripped (ibSymbol instrument)
  strippedOnce : ¬ EndsWithSuffix instrument.val.venue (ibSymbol instrument)

theorem Instrument.valid_iff (i : InstrumentFields) : postInit i = .ok () ↔
    (i.symbol ≠ "" ∧ PyStr.isStripped i.symbol ∧ ' ' ∉ i.symbol.toList) ∧
      (i.venue ≠ "" ∧ PyStr.isUpper i.venue) ∧
      requireIsoCurrency i.currency "Instrument.currency" = .ok () ∧ 0 < i.multiplier := by
  simp only [postInit, requireIsoCurrency, require_bind_eq_ok_iff, require_eq_ok_iff]

theorem readBackFields_valid_iff {instrument : Instrument} :
    postInit (readBackFields instrument) = .ok () ↔
      ibSymbol instrument ≠ "" ∧ PyStr.isStripped (ibSymbol instrument) := by
  obtain ⟨⟨-, -, hblank⟩, hvenue, hcurrency, hmultiplier⟩ :=
    (Instrument.valid_iff _).mp instrument.valid
  have hsymbol : ' ' ∉ (ibSymbol instrument).toList := fun hmem =>
    hblank ((stripSuffix_initial _ _).subset hmem)
  have hvenueBack : (readBackFields instrument).venue ≠ "" ∧
      PyStr.isUpper (readBackFields instrument).venue := by
    unfold readBackFields
    split
    · show "LSEETF" ≠ "" ∧ PyStr.isUpper "LSEETF" = true
      decide
    · exact hvenue
  rw [Instrument.valid_iff]
  constructor
  · rintro ⟨⟨hne, hstripped, -⟩, -⟩
    exact ⟨hne, hstripped⟩
  · rintro ⟨hne, hstripped⟩
    exact ⟨⟨hne, hstripped, hsymbol⟩, hvenueBack, hcurrency, hmultiplier⟩

/-- The parser answers the instrument of the read-back fields, where these are an instrument's. -/
theorem instrumentFromContract_eq_ok_iff {instrument read : Instrument} {contract : Contract}
    {text : String} (h : toContract instrument = .ok contract)
    (htext : ∀ d ∈ contract.multiplier, DecimalValue.ofString text = .ok (.finite d)) :
    instrumentFromContract (contract.attrs text) = .ok (.embed read) ↔
      read.val = readBackFields instrument := by
  rw [instrumentFromContract_attrs h htext, require_bind_eq_ok_iff, Frozen.make_eq_ok_iff]
  constructor
  · rintro ⟨-, heq⟩
    exact Wire.InstrumentFields.embed_injective heq
  · intro heq
    have hvalid := read.valid
    rw [heq, readBackFields_valid_iff] at hvalid
    exact ⟨hvalid.1, congrArg Wire.InstrumentFields.embed heq⟩

/-- An ETF and an equity of one venue get one security type and one route, but in London. -/
theorem assetClassToSecType_readBack (assetClass : AssetClass) :
    assetClassToSecType assetClass.readBack = assetClassToSecType assetClass := by
  cases assetClass <;> rfl

theorem routeOf_readBack {instrument read : Instrument} (ibExchange : String)
    (hvenue : read.val.venue = instrument.val.venue)
    (hclass : read.val.assetClass = instrument.val.assetClass.readBack)
    (hknown : ¬ OnLseEtfBook instrument) :
    routeOf read ibExchange = routeOf instrument ibExchange := by
  unfold routeOf
  rw [hvenue, hclass]
  by_cases hetf : instrument.val.assetClass = .etf
  · have hvenue : instrument.val.venue ≠ "XLON" := fun hv => hknown ⟨hv, hetf⟩
    simp [hetf, AssetClass.readBack, smartEligibleAssetClasses, hvenue]
  · have hsame : instrument.val.assetClass.readBack = instrument.val.assetClass := by
      cases hc : instrument.val.assetClass <;> first | rfl | exact absurd hc hetf
    rw [hsame]

/-- The contract of an instrument with the read-back fields: the symbol is stripped once more. -/
theorem toContract_readBack {instrument read : Instrument} {contract : Contract}
    (h : toContract instrument = .ok contract) (hread : read.val = readBackFields instrument)
    (hknown : ¬ OnLseEtfBook instrument) :
    toContract read = .ok { contract with
      symbol := stripSuffix instrument.val.venue contract.symbol } := by
  obtain ⟨hspot, secType, hsecType, ibExchange, hexchange, rfl⟩ := toContract_eq_ok_iff.mp h
  have hvenue : read.val.venue = instrument.val.venue := by
    rw [hread]
    exact if_neg hknown
  have hclass : read.val.assetClass = instrument.val.assetClass.readBack := by rw [hread]; rfl
  refine toContract_eq_ok_iff.mpr ⟨by rw [hread]; rfl, secType, ?_, ibExchange, ?_, ?_⟩
  · rw [hclass, assetClassToSecType_readBack, hsecType]
  · rw [hvenue, hexchange]
  · have hsymbol : ibSymbol read = stripSuffix instrument.val.venue (ibSymbol instrument) := by
      rw [ibSymbol_eq read, hvenue, hread]
      rfl
    rw [hsymbol, routeOf_readBack ibExchange hvenue hclass hknown, hread]
    rfl

/-- The resolver does not know the LSE ETF book as a venue. -/
theorem toContract_lseEtf {instrument : Instrument} (hvenue : instrument.val.venue = "LSEETF")
    (contract : Contract) : toContract instrument ≠ .ok contract := by
  intro h
  obtain ⟨-, -, -, ibExchange, hexchange, -⟩ := toContract_eq_ok_iff.mp h
  have hunknown : micToIbExchange "LSEETF" = none := by decide
  rw [hvenue, hunknown] at hexchange
  cases hexchange

/-- The instrument that is read back from a contract leads to that contract again, exactly for
the instruments on which the two tables and the symbols agree. -/
theorem readBack_closes_iff {instrument : Instrument} {contract : Contract} {text : String}
    (h : toContract instrument = .ok contract)
    (htext : ∀ d ∈ contract.multiplier, DecimalValue.ofString text = .ok (.finite d)) :
    (∃ read : Instrument, instrumentFromContract (contract.attrs text) = .ok (.embed read) ∧
        toContract read = .ok contract) ↔ Closes instrument := by
  have hsymbol : contract.symbol = ibSymbol instrument := by
    obtain ⟨-, -, -, -, -, rfl⟩ := toContract_eq_ok_iff.mp h
    rfl
  constructor
  · rintro ⟨read, hparse, hcontract⟩
    have hread := (instrumentFromContract_eq_ok_iff h htext).mp hparse
    have hknown : ¬ OnLseEtfBook instrument := by
      intro hbook
      refine toContract_lseEtf ?_ contract hcontract
      rw [hread]
      exact if_pos hbook
    have hvalid := read.valid
    rw [hread, readBackFields_valid_iff] at hvalid
    refine ⟨hknown, hvalid, ?_⟩
    rw [toContract_readBack h hread hknown, Except.ok.injEq] at hcontract
    rw [← hsymbol, ← stripSuffix_eq_self_iff]
    exact congrArg Contract.symbol hcontract
  · rintro ⟨hknown, hvalid, honce⟩
    let read : Instrument := ⟨readBackFields instrument, readBackFields_valid_iff.mpr hvalid⟩
    refine ⟨read, (instrumentFromContract_eq_ok_iff h htext).mpr rfl, ?_⟩
    rw [toContract_readBack h rfl hknown, hsymbol, stripSuffix_eq_self_iff.mpr honce, ← hsymbol]

/-- An ETF of the London exchange, quoted on its ETF book. -/
def londonEtf : Instrument :=
  ⟨{ symbol := "QQL3.L", venue := "XLON", currency := "USD", assetClass := .etf },
    by decide +kernel⟩

theorem not_readBack_closes :
    ¬ ∀ (instrument : Instrument) (contract : Contract) (text : String),
      toContract instrument = .ok contract →
      (∀ d ∈ contract.multiplier, DecimalValue.ofString text = .ok (.finite d)) →
      ∃ read : Instrument, instrumentFromContract (contract.attrs text) = .ok (.embed read) ∧
        toContract read = .ok contract := by
  intro h
  have hcontract : toContract londonEtf = .ok ⟨"QQL3", "STK", "USD", "SMART", "LSEETF", none⟩ := by
    decide +kernel
  have hread : instrumentFromContract
      (Contract.attrs ⟨"QQL3", "STK", "USD", "SMART", "LSEETF", none⟩ "") =
        Frozen.make ⟨"QQL3", "LSEETF", "USD", .equity, .finite 1, .spot⟩ := by
    decide +kernel
  obtain ⟨read, hparse, hclosed⟩ := h londonEtf _ "" hcontract (by simp)
  rw [hread, Frozen.make_eq_ok_iff] at hparse
  have hvenue : read.val.venue = "LSEETF" := congrArg Wire.InstrumentFields.venue hparse
  exact toContract_lseEtf hvenue _ hclosed

theorem readBack_closes_cac :
    (∃ read : Instrument,
      instrumentFromContract (Contract.attrs ⟨"CAC", "STK", "EUR", "SBF", "", none⟩ "") =
        .ok (.embed read) ∧
      toContract read = .ok ⟨"CAC", "STK", "EUR", "SBF", "", none⟩) ↔ Closes sampleInstrument :=
  readBack_closes_iff
    (show toContract sampleInstrument = .ok ⟨"CAC", "STK", "EUR", "SBF", "", none⟩ by
      decide +kernel) (by simp)

end Blive
