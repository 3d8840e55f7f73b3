import Blive.Adapters.Ib.CachedServices

/-!
# What the cached services return

Calls of the resolver and of the price rules run in any number of tasks and in any order of steps,
and some are cancelled. What a call returns goes back to answers of the venue to a call for the
same instrument, and the cache hands out nothing that was entered before the cache was last
cleared.
-/

namespace Blive

open Transition Tasks
open Coroutine (alone_bind alone_attempt alone_pure alone_ofExcept alone_get
  alone_modify alone_await)

variable {τ : Type}

namespace IBInstrumentResolver

abbrev Past (τ : Type) := History τ Method IbRequest.Answer

/-- The cache is cleared, for the instrument or as a whole. -/
def Clears (instrument : Instrument) (action : TaskAction τ Method IbRequest.Answer) : Prop :=
  ∃ task, action = .call task (.clearCache none) ∨
    action = .call task (.clearCache (some instrument))

/-- The venue answers for the contract of the instrument, with one candidate, which has the
`conId`. -/
inductive Qualifies (instrument : Instrument) :
    Int → TaskAction τ Method IbRequest.Answer → Prop
  | answer {task : τ} {contract : Contract} {result : List QualifyElement}
      {candidate : QualifiedContract} (hcontract : toContract instrument = .ok contract)
      (hcandidates : candidates result = [candidate]) (hconId : candidate.conId ≠ 0) :
      Qualifies instrument candidate.conId (.answer task ⟨.qualifyContracts contract, .ok result⟩)

/-- The action lets a call of `resolve` in the task raise the exception. -/
inductive Raises (instrument : Instrument) (task : τ) :
    TaskAction τ Method IbRequest.Answer → Error → Prop
  | unmapped {e : PyError} (h : toContract instrument = .error e) :
      Raises instrument task (.call task (.resolve instrument)) (.py e)
  | limiter (e : PyError) :
      Raises instrument task (.answer task ⟨.acquire "global", .error e⟩) (.py e)
  | venue {contract : Contract} (e : PyError) (h : toContract instrument = .ok contract) :
      Raises instrument task (.answer task ⟨.qualifyContracts contract, .error e⟩) (.py e)
  | response {contract : Contract} {result : List QualifyElement} {e : Error}
      (h : toContract instrument = .ok contract) (he : conIdOf instrument result = .error e) :
      Raises instrument task (.answer task ⟨.qualifyContracts contract, .ok result⟩) e

theorem conIdOf_eq_ok {instrument : Instrument} {result : List QualifyElement} {conId : Int}
    (h : conIdOf instrument result = .ok conId) :
    ∃ candidate, candidates result = [candidate] ∧ candidate.conId ≠ 0 ∧
      candidate.conId = conId := by
  simp only [conIdOf] at h
  split at h
  · cases h
  · split at h
    · cases h
    · cases h
      exact ⟨_, ‹_›, ‹_›, rfl⟩
  · cases h

/-- Every `conId` in the cache is an answer of the venue since the cache was last cleared. -/
abbrev Current (past : Past τ) (cache : Cache) : Prop :=
  Fresh (fun instrument conId _ => Qualifies instrument conId) Clears past cache

/-- How a call ends, by the last of the actions. -/
def Ends (instrument : Instrument) (task : τ) (past : Past τ) (result : Except Error Int) : Prop :=
  match result with
  | .ok conId => Since (fun _ => Qualifies instrument conId) (Clears instrument) past
  | .error e => ∃ before action, past = before ++ [action] ∧ Raises instrument task action e

theorem resolve_ensures {task : τ} {instrument : Instrument} {past : Past τ} {cache : Cache}
    (h : Current past cache) :
    Ensures Current task
      (fun past cache result => Current past cache ∧ Ends instrument task past result)
      (resolve instrument) (past ++ [.call task (.resolve instrument)]) cache := by
  have hcall : Current (past ++ [.call task (.resolve instrument)]) cache :=
    h.later (by simp [Clears])
  simp only [resolve, ensures_bind, ensures_get]
  cases hcached : cache.get? instrument with
  | some conId => exact ⟨hcall, hcall instrument conId hcached⟩
  | none =>
    simp only [pyResult, ensures_bind, ensures_ofExcept, ensures_await]
    cases hcontract : toContract instrument with
    | error e => exact ⟨hcall, _, _, rfl, .unmapped hcontract⟩
    | ok contract =>
      refine ⟨hcall, ?_⟩
      intro others₁ cache₁ token _ h₁
      generalize past ++ [_] ++ others₁ = past₁ at h₁ ⊢
      have htoken : Current (past₁ ++ [.answer task ⟨.acquire "global", token⟩]) cache₁ :=
        h₁.later (by simp [Clears])
      cases token with
      | error e => exact ⟨htoken, _, _, rfl, .limiter e⟩
      | ok _ =>
        refine ⟨htoken, ?_⟩
        intro others₂ cache₂ response _ h₂
        generalize past₁ ++ [_] ++ others₂ = past₂ at h₂ ⊢
        have hresponse :
            Current (past₂ ++ [.answer task ⟨.qualifyContracts contract, response⟩]) cache₂ :=
          h₂.later (by simp [Clears])
        cases response with
        | error e => exact ⟨hresponse, _, _, rfl, .venue e hcontract⟩
        | ok result =>
          cases hconId : conIdOf instrument result with
          | error e =>
            simp only [Except.mapError, hconId]
            exact ⟨hresponse, _, _, rfl, .response hcontract hconId⟩
          | ok conId =>
            obtain ⟨candidate, hcandidates, hne, rfl⟩ := conIdOf_eq_ok hconId
            have hsince : Since (fun _ => Qualifies instrument candidate.conId) (Clears instrument)
                (past₂ ++ [.answer task ⟨.qualifyContracts contract, .ok result⟩]) :=
              .now (.answer hcontract hcandidates hne)
            simp only [Except.mapError, hconId, ensures_modify, ensures_pure]
            exact ⟨hresponse.set hsince, hsince⟩

theorem clearCache_ensures {task : τ} {cleared : Option Instrument} {past : Past τ} {cache : Cache}
    (h : Current past cache) :
    Ensures Current task (fun past cache _ => Current past cache ∧ True) (clearCache cleared)
      (past ++ [.call task (.clearCache cleared)]) cache := by
  simp only [clearCache, ensures_modify, and_true]
  cases cleared with
  | none => exact .empty
  | some cleared => exact h.erase (by simp [Clears, eq_comm])

/-- What the runs of the resolver meet. -/
def Spec : (method : Method) → τ → Past τ → Cache → Except Error method.Result → Prop
  | .resolve instrument, task, past, _, result => Ends instrument task past result
  | .clearCache _, _, _, _, _ => True

theorem meets : Meets (τ := τ) body Current Spec where
  call task method past cache h := by
    cases method with
    | resolve instrument => exact resolve_ensures h
    | clearCache cleared => exact clearCache_ensures h
  cancel task past cache h := h.later (by simp [Clears])

/-- In any run of calls in any number of tasks, a `conId` that `resolve` returns was answered by
the venue, as the only candidate for the contract of the instrument, after the cache was last
cleared; what `resolve` raises, the last answer to the call itself says, or that the instrument
has no contract. -/
theorem resolve_ends [DecidableEq τ] {past : Past τ}
    {s : Tasks τ Cache IbRequest.Answer Error Method.Result}
    (hrun : run (step body) ⟨.empty, .empty⟩ past = some s)
    {action : TaskAction τ Method IbRequest.Answer} {task : τ} {instrument : Instrument}
    {result : Except Error Int}
    (hended : ⟨task, .resolve instrument, result⟩ ∈ s.endings body action) :
    match result with
    | .ok conId =>
      Since (fun _ => Qualifies instrument conId) (Clears instrument) (past ++ [action])
    | .error e => Raises instrument task action e := by
  obtain ⟨_, hends⟩ := meets.ends .empty hrun hended
  cases result with
  | ok conId => exact hends
  | error e =>
    obtain ⟨before, last, hlast, hraises⟩ := hends
    obtain ⟨rfl, heq⟩ := List.append_inj' hlast rfl
    cases heq
    exact hraises

/-- Two tasks resolve an instrument, and the cache is cleared while the second one waits. -/
def sampleActions : Past Nat :=
  [.call 1 (.resolve sampleInstrument), .call 2 (.resolve sampleInstrument),
    .answer 2 ⟨.acquire "global", .ok ()⟩, .answer 1 ⟨.acquire "global", .ok ()⟩,
    .answer 1 ⟨.qualifyContracts sampleContract, .ok [.contract ⟨7, "SBF", "EUR"⟩]⟩,
    .call 3 (.clearCache none)]

theorem resolve_ends_cleared :
    Since (fun _ => Qualifies sampleInstrument 9) (Clears sampleInstrument) (sampleActions ++
      [.answer 2 ⟨.qualifyContracts sampleContract, .ok [.other, .contract ⟨9, "SBF", "EUR"⟩]⟩]) :=
  @resolve_ends Nat _ sampleActions _ rfl _ 2 sampleInstrument (.ok 9) (by decide +kernel)

end IBInstrumentResolver

namespace IBPriceRuleService

abbrev Past (τ : Type) := History τ Method IbRequest.Answer

/-- The answers given to a call. -/
abbrev Answers := List (Σ request : IbRequest, request.Answer)

/-- The cache is cleared, for the instrument or as a whole. -/
def Clears (instrument : Instrument) (action : TaskAction τ Method IbRequest.Answer) : Prop :=
  ∃ task, action = .call task (.clearCache none) ∨
    action = .call task (.clearCache (some instrument))

/-- The call of the client that `asks` names came to this: the venue said so, or the limiter before
it raised the exception. -/
def Given {ν : Type} (answers : Answers)
    (asks : Except PyError ν → Σ request : IbRequest, request.Answer) (answer : Except PyError ν) :
    Prop :=
  asks answer ∈ answers ∨ ∃ e, answer = .error e ∧ ⟨.acquire "global", .error e⟩ ∈ answers

/-- The rule that governs the details was asked for. -/
def GivenRule (answers : Answers) (details : ContractDetails) (rules : MarketRules) : Prop :=
  ∀ ruleId, governingRuleId details = some ruleId →
    Given answers (fun answer => ⟨.marketRule ruleId, answer⟩) (rules ruleId)

/-- What `increments_for` makes of the answers given to a call, with nothing in the cache. -/
def Computes (instrument : Instrument) (answers : Answers)
    (result : Except PyError (List Wire.PriceIncrement)) : Prop :=
  ∃ details rules, fetchIncrements instrument details rules = result ∧
    ∀ contract, toContract instrument = .ok contract →
      Given answers (fun answer => ⟨.contractDetails contract, answer⟩) details ∧
      ∀ candidates chosen, details = .ok candidates →
        chooseDetails contract candidates = some chosen → GivenRule answers chosen rules

/-- The action is the last answer to a call for the instrument that comes to the table. -/
def Sources (instrument : Instrument) (table : List Wire.PriceIncrement) (before : Past τ)
    (action : TaskAction τ Method IbRequest.Answer) : Prop :=
  ∃ task answers, CallOf task (.incrementsFor instrument) answers (before ++ [action]) ∧
    Computes instrument answers (.ok table)

/-- Every table in the cache was computed since the cache was last cleared. -/
abbrev Current (past : Past τ) (cache : PriceRuleCache) : Prop := Fresh Sources Clears past cache

/-- The details that `_fetch_details` returns, or what it raises. -/
def choose (contract : Contract) (details : Except PyError (List ContractDetails)) :
    Except PyError ContractDetails :=
  details >>= fun candidates => orRaise (chooseDetails contract candidates)
    (.priceRuleUnavailable "reqContractDetails returned no details for ")

theorem current_answer {past : Past τ} {cache : PriceRuleCache} (h : Current past cache) (task : τ)
    (answer : Σ request : IbRequest, request.Answer) :
    Current (past ++ [.answer task answer]) cache :=
  h.later (by simp [Clears])

theorem Given.mono {ν : Type} {answers answers' : Answers}
    {asks : Except PyError ν → Σ request : IbRequest, request.Answer} {answer : Except PyError ν}
    (h : Given answers asks answer) (hsub : answers ⊆ answers') : Given answers' asks answer := by
  obtain h | ⟨e, rfl, h⟩ := h
  · exact .inl (hsub h)
  · exact .inr ⟨e, rfl, hsub h⟩

section Call

variable {task : τ} {instrument : Instrument} {answers : Answers} {past : Past τ}
  {cache : PriceRuleCache}

theorem fetchDetails_ensures (contract : Contract) (h : Current past cache)
    (hcall : CallOf task (.incrementsFor instrument) answers past) :
    Ensures Current task (fun past cache result => Current past cache ∧ ∃ answers details,
        CallOf task (.incrementsFor instrument) answers past ∧
        Given answers (fun answer => ⟨.contractDetails contract, answer⟩) details ∧
        result = choose contract details)
      (fetchDetails contract) past cache := by
  simp only [fetchDetails, ensures_bind, ensures_ofExcept, ensures_await]
  refine ⟨h, ?_⟩
  intro others cache₁ token hothers h₁
  have hcall₁ := hcall.answer ⟨.acquire "global", token⟩ hothers
  generalize past ++ others = past₁ at h₁ hcall₁ ⊢
  cases token with
  | error e =>
    exact ⟨current_answer h₁ _ _, _, .error e, hcall₁, .inr ⟨e, rfl, by simp⟩, rfl⟩
  | ok _ =>
    refine ⟨current_answer h₁ _ _, ?_⟩
    intro others₂ cache₂ details hothers₂ h₂
    have hcall₂ := hcall₁.answer ⟨.contractDetails contract, details⟩ hothers₂
    cases details with
    | error e => exact ⟨current_answer h₂ _ _, _, .error e, hcall₂, .inl (by simp), rfl⟩
    | ok candidates => exact ⟨current_answer h₂ _ _, _, .ok candidates, hcall₂, .inl (by simp), rfl⟩

theorem fetchMarketRule_ensures (ruleId : Int) (h : Current past cache)
    (hcall : CallOf task (.incrementsFor instrument) answers past) :
    Ensures Current task (fun past cache result => Current past cache ∧ ∃ answers' rule,
        answers ⊆ answers' ∧ CallOf task (.incrementsFor instrument) answers' past ∧
        Given answers' (fun answer => ⟨.marketRule ruleId, answer⟩) rule ∧
        result = Blive.fetchMarketRule rule)
      (fetchMarketRule ruleId) past cache := by
  simp only [fetchMarketRule, ensures_bind, ensures_ofExcept, ensures_await]
  refine ⟨h, ?_⟩
  intro others cache₁ token hothers h₁
  have hcall₁ := hcall.answer ⟨.acquire "global", token⟩ hothers
  generalize past ++ others = past₁ at h₁ hcall₁ ⊢
  cases token with
  | error e =>
    exact ⟨current_answer h₁ _ _, _, .error e, List.subset_append_left _ _, hcall₁,
      .inr ⟨e, rfl, by simp⟩, rfl⟩
  | ok _ =>
    refine ⟨current_answer h₁ _ _, ?_⟩
    intro others₂ cache₂ rule hothers₂ h₂
    have hcall₂ := hcall₁.answer ⟨.marketRule ruleId, rule⟩ hothers₂
    exact ⟨current_answer h₂ _ _, _, rule, by simp, hcall₂, .inl (by simp), rfl⟩

theorem incrementsFromDetails_ensures (details : ContractDetails) (h : Current past cache)
    (hcall : CallOf task (.incrementsFor instrument) answers past) :
    Ensures Current task (fun past cache result => Current past cache ∧ ∃ answers' rules,
        answers ⊆ answers' ∧ CallOf task (.incrementsFor instrument) answers' past ∧
        GivenRule answers' details rules ∧ result = Blive.incrementsFromDetails details rules)
      (incrementsFromDetails details) past cache := by
  rw [incrementsFromDetails]
  cases hrule : governingRuleId details with
  | none =>
    have hresult : (if ([] : List Wire.PriceIncrement) ≠ [] then pure [] else
        ofExcept (minTickBand details) : Async (List Wire.PriceIncrement)) =
          ofExcept (Blive.incrementsFromDetails details fun _ => .ok none) := by
      simp [Blive.incrementsFromDetails, hrule]
    simp only [ensures_bind, ensures_pure, hresult, ensures_ofExcept]
    exact ⟨h, answers, _, List.Subset.refl _, hcall, by simp [GivenRule, hrule], rfl⟩
  | some ruleId =>
    simp only [ensures_bind, ensures_attempt]
    refine (fetchMarketRule_ensures ruleId h hcall).mono ?_
    rintro past' cache' result - ⟨h', answers', rule, hsub, hcall', hgiven, rfl⟩
    have hrules : GivenRule answers' details fun _ => rule := by
      intro ruleId' hruleId'
      cases hrule.symm.trans hruleId'
      exact hgiven
    cases hfetched : Blive.fetchMarketRule rule with
    | error e =>
      simp only [ensures_pure, ne_eq, not_true_eq_false, if_false, ensures_ofExcept]
      exact ⟨h', answers', _, hsub, hcall', hrules, by
        simp [Blive.incrementsFromDetails, hrule, hfetched]⟩
    | ok banded =>
      have hresult : (if banded ≠ [] then pure banded else
          ofExcept (minTickBand details) : Async (List Wire.PriceIncrement)) =
            ofExcept (Blive.incrementsFromDetails details fun _ => rule) := by
        simp only [Blive.incrementsFromDetails, hrule, hfetched]
        split <;> rfl
      simp only [hresult, ensures_ofExcept]
      exact ⟨h', answers', _, hsub, hcall', hrules, rfl⟩

/-- How a call ends. -/
def Ends (instrument : Instrument) (task : τ) (past : Past τ)
    (result : Except PyError (List Wire.PriceIncrement)) : Prop :=
  match result with
  | .ok table => Since (Sources instrument table) (Clears instrument) past
  | .error e => ∃ answers, CallOf task (.incrementsFor instrument) answers past ∧
      Computes instrument answers (.error e)

/-- The last step of a call that computed a table is a source of it. -/
theorem since_of_computes {table : List Wire.PriceIncrement}
    (hcall : CallOf task (.incrementsFor instrument) answers past)
    (hcomputes : Computes instrument answers (.ok table)) :
    Since (Sources instrument table) (Clears instrument) past := by
  cases hcall with
  | call past => exact .now ⟨task, [], .call past, hcomputes⟩
  | answer answer hbefore hothers => exact .now ⟨task, _, hbefore.answer answer hothers, hcomputes⟩

theorem choose_of_chosen {contract : Contract} {details : Except PyError (List ContractDetails)}
    {candidates : List ContractDetails} {chosen : ContractDetails}
    (hdetails : details = .ok candidates)
    (hchosen : chooseDetails contract candidates = some chosen) :
    choose contract details = .ok chosen := by
  subst hdetails
  simp only [choose, bind, Except.bind, hchosen, orRaise]

theorem fetchIncrements_of_contract {contract : Contract}
    (hcontract : toContract instrument = .ok contract)
    (details : Except PyError (List ContractDetails)) (rules : MarketRules) :
    fetchIncrements instrument details rules =
      choose contract details >>= fun chosen => Blive.incrementsFromDetails chosen rules := by
  simp only [fetchIncrements, hcontract]
  cases details <;> rfl

theorem computes_of_choose_error {contract : Contract}
    {details : Except PyError (List ContractDetails)} {e : PyError}
    (hcontract : toContract instrument = .ok contract)
    (hdetails : Given answers (fun answer => ⟨.contractDetails contract, answer⟩) details)
    (hchoose : choose contract details = .error e) : Computes instrument answers (.error e) := by
  refine ⟨details, fun _ => .ok none, ?_, ?_⟩
  · rw [fetchIncrements_of_contract hcontract, hchoose]
    rfl
  · intro contract' hcontract'
    obtain rfl := Except.ok.inj (hcontract.symm.trans hcontract')
    refine ⟨hdetails, ?_⟩
    intro candidates chosen hcandidates hchosen
    cases hchoose.symm.trans (choose_of_chosen hcandidates hchosen)

theorem computes_of_choose_ok {contract : Contract}
    {details : Except PyError (List ContractDetails)} {chosen : ContractDetails}
    {rules : MarketRules}
    (hcontract : toContract instrument = .ok contract)
    (hdetails : Given answers (fun answer => ⟨.contractDetails contract, answer⟩) details)
    (hchoose : choose contract details = .ok chosen) (hrules : GivenRule answers chosen rules) :
    Computes instrument answers (Blive.incrementsFromDetails chosen rules) := by
  refine ⟨details, rules, ?_, ?_⟩
  · rw [fetchIncrements_of_contract hcontract, hchoose]
    rfl
  · intro contract' hcontract'
    obtain rfl := Except.ok.inj (hcontract.symm.trans hcontract')
    refine ⟨hdetails, ?_⟩
    intro candidates chosen' hcandidates hchosen'
    cases hchoose.symm.trans (choose_of_chosen hcandidates hchosen')
    exact hrules

theorem incrementsFor_ensures (h : Current past cache) :
    Ensures Current task
      (fun past cache result => Current past cache ∧ Ends instrument task past result)
      (incrementsFor instrument) (past ++ [.call task (.incrementsFor instrument)]) cache := by
  have hbegun : Current (past ++ [.call task (.incrementsFor instrument)]) cache :=
    h.later (by simp [Clears])
  have hcall : CallOf task (.incrementsFor instrument) ([] : Answers)
      (past ++ [.call task (.incrementsFor instrument)]) := .call past
  generalize past ++ [_] = past₀ at hbegun hcall ⊢
  simp only [incrementsFor, ensures_bind, ensures_get]
  cases hcached : cache.get? instrument with
  | some table => exact ⟨hbegun, hbegun instrument table hcached⟩
  | none =>
    simp only [ensures_bind, ensures_ofExcept]
    cases hcontract : toContract instrument with
    | error e =>
      refine ⟨hbegun, [], hcall, .error e, fun _ => .ok none, ?_, ?_⟩
      · simp only [fetchIncrements, hcontract]
        rfl
      · intro contract hcontract'
        cases hcontract.symm.trans hcontract'
    | ok contract =>
      refine (fetchDetails_ensures contract hbegun hcall).mono ?_
      rintro past₁ cache₁ result - ⟨h₁, answers, details, hcall₁, hdetails, rfl⟩
      cases hchoose : choose contract details with
      | error e =>
        exact ⟨h₁, answers, hcall₁, computes_of_choose_error hcontract hdetails hchoose⟩
      | ok chosen =>
        refine (incrementsFromDetails_ensures chosen h₁ hcall₁).mono ?_
        rintro past₂ cache₂ result - ⟨h₂, answers', rules, hsub, hcall₂, hrules, rfl⟩
        have hcomputes := computes_of_choose_ok hcontract (hdetails.mono hsub) hchoose hrules
        cases htable : Blive.incrementsFromDetails chosen rules with
        | error e =>
          rw [htable] at hcomputes
          exact ⟨h₂, answers', hcall₂, hcomputes⟩
        | ok table =>
          rw [htable] at hcomputes
          have hsince := since_of_computes hcall₂ hcomputes
          exact ⟨h₂.set hsince, hsince⟩

theorem clearCache_ensures {cleared : Option Instrument} (h : Current past cache) :
    Ensures Current task (fun past cache _ => Current past cache ∧ True) (clearCache cleared)
      (past ++ [.call task (.clearCache cleared)]) cache := by
  simp only [clearCache, ensures_modify, and_true]
  cases cleared with
  | none => exact .empty
  | some cleared => exact h.erase (by simp [Clears, eq_comm])

end Call

/-- What the runs of the service meet. -/
def Spec : (method : Method) → τ → Past τ → PriceRuleCache → Except PyError method.Result → Prop
  | .incrementsFor instrument, task, past, _, result => Ends instrument task past result
  | .clearCache _, _, _, _, _ => True

theorem meets : Meets (τ := τ) body Current Spec where
  call task method past cache h := by
    cases method with
    | incrementsFor instrument => exact incrementsFor_ensures h
    | clearCache cleared => exact clearCache_ensures h
  cancel task past cache h := h.later (by simp [Clears])

/-- In any run of calls in any number of tasks, a table that `increments_for` returns is what the
uncached function makes of the answers given to one call for the instrument, whose last answer came
after the cache was last cleared; an exception is what it makes of the answers given to the call
that raises it. -/
theorem incrementsFor_ends [DecidableEq τ] {past : Past τ}
    {s : Tasks τ PriceRuleCache IbRequest.Answer PyError Method.Result}
    (hrun : run (step body) ⟨.empty, .empty⟩ past = some s)
    {action : TaskAction τ Method IbRequest.Answer} {task : τ} {instrument : Instrument}
    {result : Except PyError (List Wire.PriceIncrement)}
    (hended : ⟨task, .incrementsFor instrument, result⟩ ∈ s.endings body action) :
    match result with
    | .ok table => Since (Sources instrument table) (Clears instrument) (past ++ [action])
    | .error e => ∃ answers, CallOf task (.incrementsFor instrument) answers (past ++ [action]) ∧
        Computes instrument answers (.error e) := by
  obtain ⟨_, hends⟩ := meets.ends .empty hrun hended
  cases result <;> exact hends

/-- A venue with one contract, which has a minimum tick and no market rule. -/
def tickVenue : (request : IbRequest) → request.Answer
  | .acquire _ => .ok ()
  | .qualifyContracts _ => .ok []
  | .contractDetails _ => .ok [⟨none, none, none, .number "0.01"⟩]
  | .marketRule _ => .ok none

/-- One cent at every price. -/
def centTable : List Wire.PriceIncrement := [⟨⟨.finite 0, .finite (1 / 100)⟩, by decide +kernel⟩]

/-- The venue answers for the contract of `sampleInstrument`. -/
def sampleDetailsTo (task : Nat) : TaskAction Nat Method IbRequest.Answer :=
  .answer task ⟨.contractDetails sampleContract, tickVenue (.contractDetails sampleContract)⟩

/-- Two tasks look for the table of an instrument, and the cache is cleared when the first one has
come to it. -/
def sampleActions : Past Nat :=
  [.call 1 (.incrementsFor sampleInstrument), .call 2 (.incrementsFor sampleInstrument),
    .answer 2 ⟨.acquire "global", .ok ()⟩, .answer 1 ⟨.acquire "global", .ok ()⟩,
    sampleDetailsTo 1, .call 3 (.clearCache (some sampleInstrument))]

theorem sampleActions_enabled :
    (run (step body) ⟨.empty, .empty⟩ sampleActions).isSome := by decide +kernel

theorem incrementsFor_ends_cleared :
    Since (Sources sampleInstrument centTable) (Clears sampleInstrument)
      (sampleActions ++ [sampleDetailsTo 2]) :=
  @incrementsFor_ends Nat _ sampleActions _ (Option.some_get sampleActions_enabled).symm _ 2
    sampleInstrument (.ok centTable) (by decide +kernel)

/-! ## A venue that does not change its mind -/

theorem incrementsFromDetails_congr {details : ContractDetails} {rules rules' : MarketRules}
    (h : ∀ ruleId, governingRuleId details = some ruleId → rules ruleId = rules' ruleId) :
    Blive.incrementsFromDetails details rules = Blive.incrementsFromDetails details rules' := by
  simp only [Blive.incrementsFromDetails]
  cases hrule : governingRuleId details with
  | none => rfl
  | some ruleId => simp only [h ruleId hrule]

/-- What `increments_for` returns or raises without a cache, where the limiter lets every call
pass. -/
def fetched (venue : (request : IbRequest) → request.Answer) (instrument : Instrument) :
    Except PyError (List Wire.PriceIncrement) :=
  fetchIncrements instrument
    (toContract instrument >>= fun contract => venue (.contractDetails contract))
    fun ruleId => venue (.marketRule ruleId)

section Venue

variable {venue : (request : IbRequest) → request.Answer} {answers : Answers}

theorem Given.eq_of_venue {ν : Type}
    {asks : Except PyError ν → Σ request : IbRequest, request.Answer} {answer : Except PyError ν}
    (h : Given answers asks answer)
    (hlimiter : venue (.acquire "global") = .ok ())
    (hanswers : ∀ a ∈ answers, a.2 = venue a.1) : (asks answer).2 = venue (asks answer).1 := by
  obtain h | ⟨e, -, h⟩ := h
  · exact hanswers _ h
  · have hraised : venue (.acquire "global") = .error e := (hanswers _ h).symm
    cases hlimiter.symm.trans hraised

theorem Computes.eq_fetched {instrument : Instrument}
    {result : Except PyError (List Wire.PriceIncrement)} (h : Computes instrument answers result)
    (hlimiter : venue (.acquire "global") = .ok ())
    (hanswers : ∀ a ∈ answers, a.2 = venue a.1) : result = fetched venue instrument := by
  obtain ⟨details, rules, rfl, hgiven⟩ := h
  cases hcontract : toContract instrument with
  | error e =>
    simp only [fetched, fetchIncrements, hcontract]
    rfl
  | ok contract =>
    obtain ⟨hdetails, hrules⟩ := hgiven contract hcontract
    have hvenue : details = venue (.contractDetails contract) :=
      hdetails.eq_of_venue hlimiter hanswers
    have hfetched : fetched venue instrument = fetchIncrements instrument details fun ruleId =>
        venue (.marketRule ruleId) := by
      rw [fetched, hcontract, hvenue]
      rfl
    rw [hfetched, fetchIncrements_of_contract hcontract, fetchIncrements_of_contract hcontract]
    cases details with
    | error e => rfl
    | ok candidates =>
      cases hchosen : chooseDetails contract candidates with
      | none => simp [choose, bind, Except.bind, hchosen, orRaise]
      | some chosen =>
        simp only [choose_of_chosen rfl hchosen, bind, Except.bind]
        apply incrementsFromDetails_congr
        intro ruleId hruleId
        exact (hrules candidates chosen rfl hchosen ruleId hruleId).eq_of_venue hlimiter hanswers

theorem CallOf.agrees {task : τ} {instrument : Instrument} {past : Past τ}
    (h : CallOf task (.incrementsFor instrument) answers past)
    (hpast : ∀ a ∈ past, a.Agrees venue) : ∀ a ∈ answers, a.2 = venue a.1 :=
  fun _ ha => hpast _ (h.mem ha)

/-- As long as the venue does not change its answers, the cache cannot be told from none: every
call returns or raises what the uncached function makes of these answers, whatever the other tasks
do. -/
theorem incrementsFor_of_venue [DecidableEq τ] {past : Past τ}
    {s : Tasks τ PriceRuleCache IbRequest.Answer PyError Method.Result}
    (hrun : run (step body) ⟨.empty, .empty⟩ past = some s)
    {action : TaskAction τ Method IbRequest.Answer} {task : τ} {instrument : Instrument}
    {result : Except PyError (List Wire.PriceIncrement)}
    (hended : ⟨task, .incrementsFor instrument, result⟩ ∈ s.endings body action)
    (hlimiter : venue (.acquire "global") = .ok ())
    (hagrees : ∀ a ∈ past ++ [action], a.Agrees venue) : result = fetched venue instrument := by
  obtain ⟨_, hends⟩ := meets.ends .empty hrun hended
  cases result with
  | error e =>
    obtain ⟨answers, hcall, hcomputes⟩ := hends
    exact hcomputes.eq_fetched hlimiter (CallOf.agrees hcall hagrees)
  | ok table =>
    obtain ⟨before, last, after, hpast, ⟨task', answers, hcall, hcomputes⟩, -⟩ := hends
    refine hcomputes.eq_fetched hlimiter (CallOf.agrees hcall ?_)
    intro a ha
    refine hagrees a ?_
    rw [hpast, List.append_cons]
    exact List.mem_append_left _ ha

theorem incrementsFor_of_venue_cleared : .ok centTable = fetched tickVenue sampleInstrument :=
  @incrementsFor_of_venue Nat tickVenue _ sampleActions _
    (Option.some_get sampleActions_enabled).symm (sampleDetailsTo 2) 2 sampleInstrument
    (.ok centTable) (by decide +kernel) rfl
    (by simp [sampleActions, sampleDetailsTo, TaskAction.Agrees, tickVenue])

end Venue

/-! ## One call after the other -/

section Alone

variable (world : Nat → (request : IbRequest) → request.Answer) (n : Nat) (cache : PriceRuleCache)

theorem ok_bind {ε μ ν : Type} (v : μ) (f : μ → Except ε ν) : (Except.ok v >>= f) = f v := rfl

theorem fetchDetails_alone (contract : Contract) :
    (fetchDetails contract).alone world n cache =
      match world n (.acquire "global") with
      | .error e => (cache, [.acquire "global"], .error e)
      | .ok _ => (cache, [.acquire "global", .contractDetails contract],
          choose contract (world (n + 1) (.contractDetails contract))) := by
  simp only [fetchDetails, alone_bind, alone_await, alone_ofExcept]
  cases world n (.acquire "global") with
  | error e => rfl
  | ok _ =>
    simp only [List.length_cons, List.length_nil]
    cases world (n + 1) (.contractDetails contract) with
    | error e => rfl
    | ok candidates => rfl

theorem fetchMarketRule_alone (ruleId : Int) :
    (fetchMarketRule ruleId).alone world n cache =
      match world n (.acquire "global") with
      | .error e => (cache, [.acquire "global"], .error e)
      | .ok _ => (cache, [.acquire "global", .marketRule ruleId],
          Blive.fetchMarketRule (world (n + 1) (.marketRule ruleId))) := by
  simp only [fetchMarketRule, alone_bind, alone_await, alone_ofExcept]
  cases world n (.acquire "global") with
  | error e => rfl
  | ok _ => rfl

theorem incrementsFromDetails_alone (details : ContractDetails) :
    ∃ requests, (incrementsFromDetails details).alone world n cache =
      (cache, requests, Blive.incrementsFromDetails details fun ruleId =>
        world n (.acquire "global") >>= fun _ => world (n + 1) (.marketRule ruleId)) := by
  rw [incrementsFromDetails, Blive.incrementsFromDetails]
  cases governingRuleId details with
  | none =>
    refine ⟨[], ?_⟩
    simp [alone_bind]
  | some ruleId =>
    simp only [alone_bind, alone_attempt, fetchMarketRule_alone]
    cases world n (.acquire "global") with
    | error e => simp [Blive.fetchMarketRule, bind, Except.bind]
    | ok _ =>
      simp only [ok_bind]
      obtain ⟨fetched, hfetched⟩ : ∃ fetched,
          Blive.fetchMarketRule (world (n + 1) (.marketRule ruleId)) = fetched := ⟨_, rfl⟩
      simp only [hfetched]
      cases fetched with
      | error e => simp
      | ok banded => by_cases hbanded : banded = [] <;> simp [hbanded]

/-- A call that nobody interrupts does what `increments_for` is as a function of the answers. -/
theorem incrementsFor_alone (instrument : Instrument) :
    ∃ requests, (incrementsFor instrument).alone world n cache =
      let (result, cache') := Blive.incrementsFor cache instrument
        (world n (.acquire "global") >>= fun _ => toContract instrument >>= fun contract =>
          world (n + 1) (.contractDetails contract))
        fun ruleId => world (n + 2) (.acquire "global") >>= fun _ =>
          world (n + 3) (.marketRule ruleId)
      (cache', requests, result) := by
  simp only [incrementsFor, alone_bind, alone_get, Blive.incrementsFor]
  cases hcached : cache.get? instrument with
  | some table => exact ⟨[], rfl⟩
  | none =>
    simp only [alone_bind, alone_ofExcept]
    cases hcontract : toContract instrument with
    | error e =>
      simp only [fetchIncrements, hcontract]
      exact ⟨[], rfl⟩
    | ok contract =>
      simp only [fetchIncrements_of_contract hcontract, fetchDetails_alone]
      cases world n (.acquire "global") with
      | error e => exact ⟨_, rfl⟩
      | ok _ =>
        simp only [ok_bind]
        cases choose contract (world (n + 1) (.contractDetails contract)) with
        | error e => exact ⟨_, rfl⟩
        | ok chosen =>
          obtain ⟨requests, hrequests⟩ :=
            incrementsFromDetails_alone world (n + 2) cache chosen
          simp only [List.length_cons, List.length_nil, Nat.zero_add, Nat.reduceAdd, hrequests,
            ok_bind]
          obtain ⟨fetched, hfetched⟩ : ∃ fetched,
              (Blive.incrementsFromDetails chosen fun ruleId =>
                world (n + 2) (.acquire "global") >>= fun _ => world (n + 3) (.marketRule ruleId)) =
                fetched := ⟨_, rfl⟩
          simp only [hfetched]
          cases fetched with
          | error e => exact ⟨_, rfl⟩
          | ok increments => exact ⟨_, rfl⟩

/-- In the loop, a call of `increments_for` whose answers come before anything else happens ends as
the function of the answers does, and leaves the cache as that does. -/
theorem incrementsFor_uninterrupted [DecidableEq τ] {task : τ}
    {s : Tasks τ PriceRuleCache IbRequest.Answer PyError Method.Result} (h : task ∉ s.waiting)
    (instrument : Instrument) :
    let (result, cache) := Blive.incrementsFor s.shared instrument
      (world 0 (.acquire "global") >>= fun _ => toContract instrument >>= fun contract =>
        world 1 (.contractDetails contract))
      fun ruleId => world 2 (.acquire "global") >>= fun _ => world 3 (.marketRule ruleId)
    ∃ answers : Answers,
      run (step body) s (.call task (.incrementsFor instrument) :: answers.map (.answer task)) =
        some ⟨cache, s.waiting.erase task⟩ ∧
      trace (step body) (fun s a _ => s.endings body a) s
          (.call task (.incrementsFor instrument) :: answers.map (.answer task)) =
        [⟨task, .incrementsFor instrument, result⟩] := by
  obtain ⟨answers, -, hrun, htrace⟩ :=
    run_alone body world (.incrementsFor instrument) 0 h
  obtain ⟨requests, halone⟩ := incrementsFor_alone world 0 s.shared instrument
  simp only [body, halone] at hrun htrace
  exact ⟨answers, hrun, htrace⟩

end Alone

end IBPriceRuleService

end Blive
