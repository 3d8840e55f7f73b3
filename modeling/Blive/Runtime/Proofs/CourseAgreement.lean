import Blive.Runtime.Proofs.Course
import Blive.Runtime.Proofs.SignalCausality

/-!
# Courses that agree up to a time

Two loops that are the same up to a time `t` and hear the same in their rebalances up to it make
the same decisions up to it. Where the courses stand alike they hear the same kind of input next;
where one has passed `t`, so has the other, and a course that has passed `t` decides nothing any
more that is within it.
-/

namespace Blive.IbPipeline

open Timeline Transition

/-- The loops differ in the bars after `t` and in what they make of these. -/
structure RebalanceLoop.SameUpTo (t : Int) (loop loop' : RebalanceLoop) : Prop where
  same : loop' = { loop with bars := loop'.bars, rebalance := loop'.rebalance }
  rebalance : ∀ bar : Bar, bar.closed ≤ t → loop'.rebalance bar = loop.rebalance bar
  inOrder : InOrder Bar.closed loop.bars
  inOrder' : InOrder Bar.closed loop'.bars
  bars : upTo Bar.closed t loop.bars = upTo Bar.closed t loop'.bars

/-- A rebalance takes place at the close of its bar. -/
def RebalanceLoop.Timed (loop : RebalanceLoop) : Prop :=
  ∀ bar rebalance, loop.rebalance bar = .ok (some rebalance) → rebalance.bar = bar

/-! ## Two courses -/

/-- The bars are in order, and those up to `t` are the same. -/
structure BarsAlike (t : Int) (bars bars' : List Bar) : Prop where
  inOrder : InOrder Bar.closed bars
  inOrder' : InOrder Bar.closed bars'
  same : upTo Bar.closed t bars = upTo Bar.closed t bars'

/-- The places are the same but for the bars after `t`. -/
inductive Place.Alike (t : Int) : Place → Place → Prop
  | atBar {bars bars' : List Bar} (hbars : BarsAlike t bars bars') :
      Alike t (.atBar bars) (.atBar bars')
  | atOrder {bars bars' : List Bar} (rebalance : Rebalance) (orders : List Order)
      (htime : rebalance.time.micros ≤ t) (hbars : BarsAlike t bars bars') :
      Alike t (.atOrder rebalance orders bars) (.atOrder rebalance orders bars')
  | waiting {bars bars' : List Bar} (rebalance : Rebalance) (orders : List Order)
      (htime : rebalance.time.micros ≤ t) (hbars : BarsAlike t bars bars') :
      Alike t (.waiting rebalance orders bars) (.waiting rebalance orders bars')
  | ended : Alike t .ended .ended

/-- The courses have the same books and stand alike. -/
structure Course.Alike (t : Int) (course course' : Course) : Prop where
  books : course' = { course with place := course'.place }
  place : course.place.Alike t course'.place

/-- Both courses have passed `t`, with the same decisions up to it. -/
structure Course.BothPast (t : Int) (course course' : Course) : Prop where
  past : course.place.Past t
  past' : course'.place.Past t
  orders : course.ordersUpTo t = course'.ordersUpTo t
  points : course.pointsUpTo t = course'.pointsUpTo t

/-- What a course has decided up to `t`, the other has decided too. -/
structure Course.Ahead (t : Int) (course course' : Course) : Prop where
  orders : course.ordersUpTo t <+: course'.ordersUpTo t
  points : course.pointsUpTo t <+: course'.pointsUpTo t

section Course

variable {t : Int} {loop loop' : RebalanceLoop} {course course' : Course}

theorem Course.Ahead.trans {course'' : Course} (h : Course.Ahead t course course')
    (h' : Course.Ahead t course' course'') : Course.Ahead t course course'' :=
  ⟨h.orders.trans h'.orders, h.points.trans h'.points⟩

theorem upTo_mono {α : Type} {time : α → Int} {xs ys : List α} (h : xs <+: ys) :
    upTo time t xs <+: upTo time t ys := h.filter _

/-- Decisions are not taken back. -/
theorem hear_ahead (loop : RebalanceLoop) (t : Int) (course : Course) (input : Input) :
    Course.Ahead t course (Course.hear loop course input) := by
  have hgrows : course.submitted <+: (Course.hear loop course input).submitted ∧
      course.equityCurve <+: (Course.hear loop course input).equityCurve := by
    cases input with
    | turned =>
      simp only [Course.hear]
      split
      · exact ⟨List.prefix_rfl, List.prefix_rfl⟩
      · unfold Course.openRebalance
        split
        · exact ⟨List.prefix_rfl, List.prefix_rfl⟩
        · exact ⟨List.prefix_rfl, List.prefix_rfl⟩
        · split <;> exact ⟨List.prefix_rfl, List.prefix_rfl⟩
      · exact ⟨List.prefix_rfl, List.prefix_append _ _⟩
      · exact ⟨List.prefix_rfl, List.prefix_rfl⟩
    | asked killSwitch artefact =>
      simp only [Course.hear]
      split
      · unfold Course.ask
        split
        · exact ⟨List.prefix_rfl, List.prefix_rfl⟩
        · split
          · exact ⟨List.prefix_rfl, List.prefix_rfl⟩
          · unfold Course.submit
            split
            · exact ⟨List.prefix_rfl, List.prefix_rfl⟩
            · exact ⟨List.prefix_append _ _, List.prefix_rfl⟩
      · exact ⟨List.prefix_rfl, List.prefix_rfl⟩
    | answered fate =>
      simp only [Course.hear]
      split
      · unfold Course.answer
        cases fate with
        | filled fill =>
          dsimp only
          split <;> exact ⟨List.prefix_rfl, List.prefix_rfl⟩
        | unfilled => exact ⟨List.prefix_rfl, List.prefix_rfl⟩
        | raised => exact ⟨List.prefix_rfl, List.prefix_rfl⟩
      · exact ⟨List.prefix_rfl, List.prefix_rfl⟩
  exact ⟨upTo_mono hgrows.1, upTo_mono hgrows.2⟩

theorem foldl_ahead (loop : RebalanceLoop) (t : Int) (course : Course) (inputs : List Input) :
    Course.Ahead t course (inputs.foldl (Course.hear loop) course) := by
  induction inputs generalizing course with
  | nil => exact ⟨List.prefix_rfl, List.prefix_rfl⟩
  | cons input inputs ih => exact (hear_ahead loop t course input).trans (ih _)

/-- A course that has passed `t` stays so, and decides nothing more that is within it. -/
theorem hear_past (htimed : loop.Timed) (h : course.place.Past t) (input : Input) :
    (Course.hear loop course input).place.Past t ∧
      (Course.hear loop course input).ordersUpTo t = course.ordersUpTo t ∧
      (Course.hear loop course input).pointsUpTo t = course.pointsUpTo t := by
  have hstop : (course.stop).place.Past t ∧ (course.stop).ordersUpTo t = course.ordersUpTo t ∧
      (course.stop).pointsUpTo t = course.pointsUpTo t := ⟨trivial, rfl, rfl⟩
  cases input with
  | turned =>
    simp only [Course.hear]
    split
    · exact hstop
    · rename_i bar bars hplace
      rw [hplace] at h
      obtain ⟨hbar, hbars⟩ := List.forall_mem_cons.mp h
      unfold Course.openRebalance
      split
      · exact hstop
      · exact ⟨hbars, rfl, rfl⟩
      · rename_i rebalance hrebalance
        have htime : t < rebalance.time.micros := by
          rw [Rebalance.time, htimed bar rebalance hrebalance]
          exact hbar
        split
        · exact hstop
        · exact ⟨⟨htime, hbars⟩, rfl, rfl⟩
    · rename_i rebalance bars hplace
      rw [hplace] at h
      refine ⟨h.2, rfl, ?_⟩
      have hlate : upTo (fun point : EquityPoint => point.timeUtc.micros) t [{
          timeUtc := rebalance.time
          cash := course.cash
          positions := course.positions.mapValues (·.val.quantity)
          markPrices := rebalance.markPrices
          equity := loop.computeEquity course.cash course.positions rebalance }] = [] :=
        upTo_eq_nil (by simpa using h.1)
      simp only [Course.pointsUpTo, Course.closeRebalance, upTo_append, hlate, List.append_nil]
    · exact ⟨h, rfl, rfl⟩
  | asked killSwitch artefact =>
    simp only [Course.hear]
    split
    · rename_i rebalance desired orders bars hplace
      rw [hplace] at h
      unfold Course.ask
      split
      · exact hstop
      · split
        · exact ⟨h, rfl, rfl⟩
        · unfold Course.submit
          split
          · exact hstop
          · rename_i order _
            have hlate : upTo (fun row : Datetime × Order => row.1.micros) t
                [(rebalance.time, order)] = [] := upTo_eq_nil (by simpa using h.1)
            refine ⟨h, ?_, rfl⟩
            simp only [Course.ordersUpTo, upTo_append, hlate, List.append_nil]
    · exact ⟨h, rfl, rfl⟩
  | answered fate =>
    simp only [Course.hear]
    split
    · rename_i rebalance orders bars hplace
      rw [hplace] at h
      unfold Course.answer
      cases fate with
      | filled fill =>
        dsimp only
        split
        · exact hstop
        · exact ⟨h, rfl, rfl⟩
      | unfilled => exact ⟨h, rfl, rfl⟩
      | raised => exact hstop
    · exact ⟨h, rfl, rfl⟩

theorem foldl_past (htimed : loop.Timed) (h : course.place.Past t) (inputs : List Input) :
    (inputs.foldl (Course.hear loop) course).ordersUpTo t = course.ordersUpTo t ∧
      (inputs.foldl (Course.hear loop) course).pointsUpTo t = course.pointsUpTo t := by
  induction inputs generalizing course with
  | nil => exact ⟨rfl, rfl⟩
  | cons input inputs ih =>
    obtain ⟨hpast, horders, hpoints⟩ := hear_past htimed h input
    obtain ⟨horders', hpoints'⟩ := ih hpast
    exact ⟨horders'.trans horders, hpoints'.trans hpoints⟩

/-- No bar is left up to `t`, or the next one is the same. -/
theorem BarsAlike.cases {bars bars' : List Bar} (h : BarsAlike t bars bars') :
    ((∀ bar ∈ bars, t < bar.closed) ∧ ∀ bar ∈ bars', t < bar.closed) ∨
      ∃ bar rest rest', bars = bar :: rest ∧ bars' = bar :: rest' ∧ bar.closed ≤ t ∧
        BarsAlike t rest rest' := by
  obtain ⟨hinOrder, hinOrder', hsame⟩ := h
  have hpast {bars : List Bar} (hnil : upTo Bar.closed t bars = []) :
      ∀ bar ∈ bars, t < bar.closed := by
    intro bar hbar
    by_contra hnot
    have hmem : bar ∈ upTo Bar.closed t bars := mem_upTo.mpr ⟨hbar, not_lt.mp hnot⟩
    rw [hnil] at hmem
    cases hmem
  have hnext {bars : List Bar} (hbars : InOrder Bar.closed bars) {bar : Bar} {rest : List Bar}
      (hcons : upTo Bar.closed t bars = bar :: rest) :
      ∃ later, bars = bar :: later ∧ bar.closed ≤ t ∧ upTo Bar.closed t later = rest := by
    have hbar : bar.closed ≤ t := by
      have hmem : bar ∈ upTo Bar.closed t bars := by
        rw [hcons]
        exact List.mem_cons_self
      exact (mem_upTo.mp hmem).2
    obtain ⟨later, hsplit, hlater⟩ := hbars.split t
    rw [hcons] at hsplit
    refine ⟨rest ++ later, hsplit, hbar, ?_⟩
    rw [hsplit, List.cons_append, upTo_cons_of_le hbar] at hcons
    exact (List.cons.inj hcons).2
  cases hbars : upTo Bar.closed t bars with
  | nil => exact .inl ⟨hpast hbars, hpast (hsame ▸ hbars)⟩
  | cons bar rest =>
    obtain ⟨later, rfl, hbar, hrest⟩ := hnext hinOrder hbars
    obtain ⟨later', rfl, -, hrest'⟩ := hnext hinOrder' (hsame ▸ hbars)
    exact .inr ⟨bar, later, later', rfl, rfl, hbar, hinOrder.tail, hinOrder'.tail,
      hrest.trans hrest'.symm⟩

theorem Course.Alike.orders (h : Course.Alike t course course') :
    course.ordersUpTo t = course'.ordersUpTo t := by
  rw [h.books]
  rfl

theorem Course.Alike.points (h : Course.Alike t course course') :
    course.pointsUpTo t = course'.pointsUpTo t := by
  rw [h.books]
  rfl

/-- Courses that stand alike have passed `t` together. -/
theorem Course.Alike.cases (h : Course.Alike t course course') :
    Course.BothPast t course course' ∨ ¬ course.place.Past t ∧ ¬ course'.place.Past t := by
  have hplace := h.place
  have hboth (hpast : course.place.Past t) (hpast' : course'.place.Past t) :
      Course.BothPast t course course' := ⟨hpast, hpast', h.orders, h.points⟩
  generalize course.place = place at hplace hboth
  generalize course'.place = place' at hplace hboth
  cases hplace with
  | atBar hbars =>
    rcases hbars.cases with ⟨hpast, hpast'⟩ | ⟨bar, rest, rest', rfl, rfl, hbar, -⟩
    · exact .inl (hboth hpast hpast')
    · refine .inr ⟨fun hpast => ?_, fun hpast => ?_⟩
      · exact absurd hbar (not_le.mpr (hpast bar List.mem_cons_self))
      · exact absurd hbar (not_le.mpr (hpast bar List.mem_cons_self))
  | atOrder rebalance orders htime hbars =>
    exact .inr ⟨fun hpast => absurd htime (not_le.mpr hpast.1),
      fun hpast => absurd htime (not_le.mpr hpast.1)⟩
  | waiting rebalance orders htime hbars =>
    exact .inr ⟨fun hpast => absurd htime (not_le.mpr hpast.1),
      fun hpast => absurd htime (not_le.mpr hpast.1)⟩
  | ended => exact .inl (hboth trivial trivial)

theorem Course.Alike.stop (h : Course.Alike t course course') :
    Course.Alike t course.stop course'.stop := by
  refine ⟨?_, .ended⟩
  rw [Course.stop, h.books]
  rfl

/-- The same bar is opened alike. -/
theorem openRebalance_alike (hloops : loop.SameUpTo t loop') (htimed : loop.Timed)
    (h : Course.Alike t course course') {bar : Bar} {bars bars' : List Bar} (hbar : bar.closed ≤ t)
    (hbars : BarsAlike t bars bars') :
    Course.Alike t (Course.openRebalance loop course bar bars)
      (Course.openRebalance loop' course' bar bars') := by
  have hinput (rebalance : Rebalance) :
      Course.sizerInput loop' course' rebalance = Course.sizerInput loop course rebalance := by
    rw [hloops.same, h.books]
    rfl
  unfold Course.openRebalance
  rw [hloops.rebalance bar hbar]
  split
  · exact h.stop
  · refine ⟨?_, .atBar hbars⟩
    rw [h.books]
  · rename_i rebalance hrebalance
    have htime : rebalance.time.micros ≤ t := by
      rw [Rebalance.time, htimed bar rebalance hrebalance]
      exact hbar
    rw [hinput]
    split
    · exact h.stop
    · refine ⟨?_, .atOrder rebalance _ htime hbars⟩
      rw [h.books]

theorem closeRebalance_alike (hloops : loop.SameUpTo t loop') (h : Course.Alike t course course')
    (rebalance : Rebalance) {bars bars' : List Bar} (hbars : BarsAlike t bars bars') :
    Course.Alike t (Course.closeRebalance loop course rebalance bars)
      (Course.closeRebalance loop' course' rebalance bars') := by
  refine ⟨?_, .atBar hbars⟩
  rw [hloops.same, h.books]
  rfl

theorem ask_alike (hloops : loop.SameUpTo t loop') (h : Course.Alike t course course')
    {rebalance : Rebalance} (htime : rebalance.time.micros ≤ t) (desired : Order)
    (orders : List Order) {bars bars' : List Bar} (hbars : BarsAlike t bars bars')
    (killSwitch : KillSwitch) (artefact : String → Artefact) :
    Course.Alike t (Course.ask loop course rebalance desired orders bars killSwitch artefact)
      (Course.ask loop' course' rebalance desired orders bars' killSwitch artefact) := by
  have hinputs : loop'.riskInputs rebalance desired artefact =
      loop.riskInputs rebalance desired artefact := by
    rw [hloops.same]
    rfl
  have hengine : loop'.riskEngine killSwitch = loop.riskEngine killSwitch := by
    rw [hloops.same]
    rfl
  have hpromote (approved : Order) :
      loop'.promote rebalance approved 0 = loop.promote rebalance approved 0 := by
    rw [hloops.same]
    rfl
  unfold Course.ask
  rw [hinputs, hengine]
  split
  · exact h.stop
  · split
    · refine ⟨?_, .atOrder rebalance orders htime hbars⟩
      rw [h.books]
    · unfold Course.submit
      rw [hpromote]
      split
      · exact h.stop
      · refine ⟨?_, .waiting rebalance orders htime hbars⟩
        rw [h.books]

theorem answer_alike (hloops : loop.SameUpTo t loop') (h : Course.Alike t course course')
    {rebalance : Rebalance} (htime : rebalance.time.micros ≤ t) (orders : List Order)
    {bars bars' : List Bar} (hbars : BarsAlike t bars bars') (fate : Fate) :
    Course.Alike t (Course.answer loop course rebalance orders bars fate)
      (Course.answer loop' course' rebalance orders bars' fate) := by
  cases fate with
  | filled fill =>
    have hkey : loop'.bookingKey = loop.bookingKey := by rw [hloops.same]
    have hconfig : loop'.liveConfig = loop.liveConfig := by rw [hloops.same]
    have hpositions : course'.positions = course.positions := by rw [h.books]
    simp only [Course.answer, hkey, hconfig, hpositions]
    split
    · exact h.stop
    · refine ⟨?_, .atOrder rebalance orders htime hbars⟩
      rw [h.books]
  | unfilled =>
    refine ⟨?_, .atOrder rebalance orders htime hbars⟩
    simp only [Course.answer]
    rw [h.books]
  | raised => exact h.stop

/-- Before they pass `t`, the same input moves both courses alike. -/
theorem hear_alike (hloops : loop.SameUpTo t loop') (htimed : loop.Timed)
    (h : Course.Alike t course course') (hnot : ¬ course.place.Past t) (input : Input) :
    Course.Alike t (Course.hear loop course input) (Course.hear loop' course' input) := by
  have hplace := h.place
  generalize hleft : course.place = place at hplace hnot
  generalize hright : course'.place = place' at hplace
  cases hplace with
  | atBar hbars =>
    rcases hbars.cases with ⟨hpast, -⟩ | ⟨bar, rest, rest', rfl, rfl, hbar, hrest⟩
    · exact absurd hpast hnot
    · cases input with
      | turned =>
        simp only [Course.hear, hleft, hright]
        exact openRebalance_alike hloops htimed h hbar hrest
      | asked killSwitch artefact =>
        simp only [Course.hear, hleft, hright]
        exact h
      | answered fate =>
        simp only [Course.hear, hleft, hright]
        exact h
  | atOrder rebalance orders htime hbars =>
    cases input with
    | turned =>
      cases orders with
      | nil =>
        simp only [Course.hear, hleft, hright]
        exact closeRebalance_alike hloops h rebalance hbars
      | cons desired orders =>
        simp only [Course.hear, hleft, hright]
        exact h
    | asked killSwitch artefact =>
      cases orders with
      | nil =>
        simp only [Course.hear, hleft, hright]
        exact h
      | cons desired orders =>
        simp only [Course.hear, hleft, hright]
        exact ask_alike hloops h htime desired orders hbars killSwitch artefact
    | answered fate =>
      simp only [Course.hear, hleft, hright]
      exact h
  | waiting rebalance orders htime hbars =>
    cases input with
    | turned =>
      simp only [Course.hear, hleft, hright]
      exact h
    | asked killSwitch artefact =>
      simp only [Course.hear, hleft, hright]
      exact h
    | answered fate =>
      simp only [Course.hear, hleft, hright]
      exact answer_alike hloops h htime orders hbars fate
  | ended => exact absurd trivial hnot

/-- Before they pass `t`, courses that hear the same responses hear the same next. -/
theorem input_eq {input input' : Input} {inputs inputs' : List Input}
    (h : Course.Alike t course course') (hnot : ¬ course.place.Past t)
    (hcan : course.CanHear input) (hcan' : course'.CanHear input')
    (hresponses : Course.responses loop t course (input :: inputs) =
      Course.responses loop' t course' (input' :: inputs')) :
    input = input' ∧ Course.responses loop t (Course.hear loop course input) inputs =
      Course.responses loop' t (Course.hear loop' course' input') inputs' := by
  have hplace := h.place
  generalize hleft : course.place = place at hplace hnot
  generalize hright : course'.place = place' at hplace
  -- A turn is no response, and within `t` everything else is one.
  have hturned (hinput : input = .turned) (hinput' : input' = .turned) :
      input = input' ∧ Course.responses loop t (Course.hear loop course input) inputs =
        Course.responses loop' t (Course.hear loop' course' input') inputs' := by
    subst hinput hinput'
    simpa [Course.responses, Input.isResponse] using hresponses
  have hresponse (hwithin : course.place.within t = true) (hwithin' : course'.place.within t = true)
      (hinput : input.isResponse = true) (hinput' : input'.isResponse = true) :
      input = input' ∧ Course.responses loop t (Course.hear loop course input) inputs =
        Course.responses loop' t (Course.hear loop' course' input') inputs' := by
    simpa [Course.responses, hwithin, hwithin', hinput, hinput'] using hresponses
  cases hplace with
  | atBar hbars =>
    cases input <;> simp only [Course.CanHear, hleft] at hcan
    cases input' <;> simp only [Course.CanHear, hright] at hcan'
    exact hturned rfl rfl
  | atOrder rebalance orders htime hbars =>
    cases orders with
    | nil =>
      cases input <;> simp only [Course.CanHear, hleft] at hcan
      cases input' <;> simp only [Course.CanHear, hright] at hcan'
      exact hturned rfl rfl
    | cons desired orders =>
      cases input <;> simp only [Course.CanHear, hleft] at hcan
      cases input' <;> simp only [Course.CanHear, hright] at hcan'
      exact hresponse (by simp [hleft, Place.within, htime]) (by simp [hright, Place.within, htime])
        rfl rfl
  | waiting rebalance orders htime hbars =>
    cases input <;> simp only [Course.CanHear, hleft] at hcan
    cases input' <;> simp only [Course.CanHear, hright] at hcan'
    exact hresponse (by simp [hleft, Place.within, htime]) (by simp [hright, Place.within, htime])
      rfl rfl
  | ended => exact absurd trivial hnot

/-- One course has decided what the other has and perhaps more, and once both have passed `t` they
have decided the same. -/
structure Course.Agree (t : Int) (course course' : Course) : Prop where
  ahead : Course.Ahead t course course' ∨ Course.Ahead t course' course
  past : course.place.Past t → course'.place.Past t →
    course.ordersUpTo t = course'.ordersUpTo t ∧ course.pointsUpTo t = course'.pointsUpTo t

theorem Course.BothPast.agree (htimed : loop.Timed) (htimed' : loop'.Timed)
    (h : Course.BothPast t course course') (inputs inputs' : List Input) :
    Course.Agree t (inputs.foldl (Course.hear loop) course)
      (inputs'.foldl (Course.hear loop') course') := by
  obtain ⟨horders, hpoints⟩ := foldl_past htimed h.past inputs
  obtain ⟨horders', hpoints'⟩ := foldl_past htimed' h.past' inputs'
  have hsame := horders.trans (h.orders.trans horders'.symm)
  have hsame' := hpoints.trans (h.points.trans hpoints'.symm)
  exact ⟨.inl ⟨hsame ▸ List.prefix_rfl, hsame' ▸ List.prefix_rfl⟩, fun _ _ => ⟨hsame, hsame'⟩⟩

/-- Courses that start alike and hear the same responses up to `t` agree up to it. -/
theorem foldl_agree (hloops : loop.SameUpTo t loop') (htimed : loop.Timed) (htimed' : loop'.Timed)
    {inputs inputs' : List Input} (h : Course.Alike t course course')
    (hcan : Throughout (Course.hear loop) Course.CanHear course inputs)
    (hcan' : Throughout (Course.hear loop') Course.CanHear course' inputs')
    (hresponses : Course.responses loop t course inputs =
      Course.responses loop' t course' inputs') :
    Course.Agree t (inputs.foldl (Course.hear loop) course)
      (inputs'.foldl (Course.hear loop') course') := by
  induction inputs generalizing inputs' course course' with
  | nil =>
    rcases h.cases with hboth | ⟨hnot, -⟩
    · exact hboth.agree htimed htimed' [] inputs'
    · have hahead := foldl_ahead loop' t course' inputs'
      exact ⟨.inl ⟨h.orders ▸ hahead.orders, h.points ▸ hahead.points⟩,
        fun hpast => absurd hpast hnot⟩
  | cons input inputs ih =>
    rcases h.cases with hboth | ⟨hnot, hnot'⟩
    · exact hboth.agree htimed htimed' (input :: inputs) inputs'
    · cases inputs' with
      | nil =>
        have hahead := foldl_ahead loop t course (input :: inputs)
        exact ⟨.inr ⟨h.orders ▸ hahead.orders, h.points ▸ hahead.points⟩,
          fun _ hpast => absurd hpast hnot'⟩
      | cons input' inputs' =>
        obtain ⟨rfl, hrest⟩ := input_eq h hnot hcan.1 hcan'.1 hresponses
        rw [List.foldl_cons, List.foldl_cons]
        exact ih (hear_alike hloops htimed h hnot input) hcan.2 hcan'.2 hrest

/-- Up to `t` the loop passes over the bars. -/
structure Course.Idle (t : Int) (course : Course) : Prop where
  place : course.place.Past t ∨ ∃ bars, course.place = .atBar bars ∧ InOrder Bar.closed bars
  orders : course.ordersUpTo t = []
  points : course.pointsUpTo t = []

theorem foldl_idle (htimed : loop.Timed)
    (hnone : ∀ bar : Bar, bar.closed ≤ t → loop.rebalance bar = .ok none) (h : course.Idle t)
    (inputs : List Input) : (inputs.foldl (Course.hear loop) course).Idle t := by
  induction inputs generalizing course with
  | nil => exact h
  | cons input inputs ih =>
    apply ih
    have hpast (hpast : course.place.Past t) : (Course.hear loop course input).Idle t := by
      obtain ⟨hstill, horders, hpoints⟩ := hear_past htimed hpast input
      exact ⟨.inl hstill, horders.trans h.orders, hpoints.trans h.points⟩
    rcases h.place with hpassed | ⟨bars, hplace, hinOrder⟩
    · exact hpast hpassed
    · cases bars with
      | nil => exact hpast (by simp [hplace, Place.Past])
      | cons bar bars =>
        by_cases hbar : bar.closed ≤ t
        · cases input with
          | turned =>
            simp only [Course.hear, hplace, Course.openRebalance, hnone bar hbar]
            exact ⟨.inr ⟨bars, rfl, hinOrder.tail⟩, h.orders, h.points⟩
          | asked killSwitch artefact =>
            simp only [Course.hear, hplace]
            exact h
          | answered fate =>
            simp only [Course.hear, hplace]
            exact h
        · refine hpast ?_
          rw [hplace]
          exact hinOrder.past (not_le.mp hbar)

end Course

end Blive.IbPipeline
