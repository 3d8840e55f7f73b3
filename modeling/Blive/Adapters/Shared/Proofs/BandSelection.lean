import Blive.Adapters.Shared.Proofs.PriceGrid

/-!
# The row that governs a price

`_band_for` starts from the lowest row and lets each row of the table take over that does not
lie above the price and not below the choice so far. What it answers is fixed by the rows as a
set when their low edges are distinct, so that a table need not be sorted.
-/

namespace Blive

section Selection

variable {first : PriceIncrement} {rest table : List PriceIncrement} {price : Decimal}

/-- The row by which a table governs a price: the highest that does not lie above the price,
or the lowest where all of them do. -/
def GoverningRow (price : Decimal) (table : List PriceIncrement) (band : PriceIncrement) : Prop :=
  band ∈ table ∧
    ((band.val.lowEdge ≤ price ∧
        ∀ other ∈ table, other.val.lowEdge ≤ price → other.val.lowEdge ≤ band.val.lowEdge) ∨
      ((∀ other ∈ table, price < other.val.lowEdge) ∧
        ∀ other ∈ table, band.val.lowEdge ≤ other.val.lowEdge))

/-- Where every row lies above the price the fold keeps the row it starts from. -/
theorem bandFold_of_above {bands : List PriceIncrement} (chosen : PriceIncrement)
    (h : ∀ band ∈ bands, price < band.val.lowEdge) :
    bands.foldl (fun chosen band =>
      if chosen.val.lowEdge ≤ band.val.lowEdge ∧ band.val.lowEdge ≤ price then band else chosen)
      chosen = chosen := by
  induction bands with
  | nil => rfl
  | cons band bands ih =>
    obtain ⟨hband, hbands⟩ := List.forall_mem_cons.mp h
    rw [List.foldl_cons, if_neg (fun hle => not_le.mpr hband hle.2)]
    exact ih hbands

theorem bandFor_governs (price : Decimal) (first : PriceIncrement) (rest : List PriceIncrement) :
    GoverningRow price (first :: rest) (bandFor price first rest) := by
  rcases le_or_gt (lowestBand first rest).val.lowEdge price with hlowest | hlowest
  · obtain ⟨hmem, hle, -, hall⟩ := @bandFold_spec price _ (first :: rest) hlowest
    refine ⟨?_, .inl ⟨hle, hall⟩⟩
    rcases hmem with h | h
    · rw [bandFor, h]
      exact lowestBand_mem
    · exact h
  · have habove : ∀ band ∈ first :: rest, price < band.val.lowEdge :=
      fun band hband => hlowest.trans_le (lowestBand_le band hband)
    rw [bandFor, bandFold_of_above _ habove]
    exact ⟨lowestBand_mem, .inr ⟨habove, lowestBand_le⟩⟩

theorem GoverningRow.perm {table' : List PriceIncrement} {band : PriceIncrement}
    (h : GoverningRow price table band) (hperm : table.Perm table') :
    GoverningRow price table' band := by
  simpa only [GoverningRow, hperm.mem_iff] using h

/-- Two rows that govern a price have one low edge. -/
theorem GoverningRow.lowEdge_eq {band band' : PriceIncrement}
    (h : GoverningRow price table band) (h' : GoverningRow price table band') :
    band.val.lowEdge = band'.val.lowEdge := by
  obtain ⟨hmem, ⟨hle, hall⟩ | ⟨habove, hall⟩⟩ := h <;>
    obtain ⟨hmem', ⟨hle', hall'⟩ | ⟨habove', hall'⟩⟩ := h'
  · exact le_antisymm (hall' band hmem hle) (hall band' hmem' hle')
  · exact absurd hle (not_le.mpr (habove' band hmem))
  · exact absurd hle' (not_le.mpr (habove band' hmem'))
  · exact le_antisymm (hall band' hmem') (hall' band hmem)

/-- Where the low edges are distinct the row `_band_for` answers is the one that governs the
price, in whatever order the rows stand. -/
theorem bandFor_eq_iff (hdistinct : (table.map (·.val.lowEdge)).Nodup)
    (hperm : (first :: rest).Perm table) (band : PriceIncrement) :
    bandFor price first rest = band ↔ GoverningRow price table band := by
  have hgoverns : GoverningRow price table (bandFor price first rest) :=
    (bandFor_governs price first rest).perm hperm
  constructor
  · rintro rfl
    exact hgoverns
  · intro hband
    exact List.inj_on_of_nodup_map hdistinct hgoverns.1 hband.1 (hgoverns.lowEdge_eq hband)

end Selection

/-- `_band_for` answers the row that governs the price, for every order of the rows of a table
with distinct low edges: the highest row that does not lie above the price where there is one,
else the lowest. -/
theorem bandFor_selects {price : Decimal} {table : List PriceIncrement}
    (hdistinct : (table.map (·.val.lowEdge)).Nodup) {first : PriceIncrement}
    {rest : List PriceIncrement} (hperm : (first :: rest).Perm table) :
    GoverningRow price table (bandFor price first rest) ∧
      (∀ band, GoverningRow price table band → band = bandFor price first rest) ∧
      ∀ first' rest', (first' :: rest').Perm table →
        bandFor price first' rest' = bandFor price first rest := by
  have hgoverns : GoverningRow price table (bandFor price first rest) :=
    (bandFor_governs price first rest).perm hperm
  refine ⟨hgoverns, fun band hband => ((bandFor_eq_iff hdistinct hperm band).mpr hband).symm, ?_⟩
  intro first' rest' hperm'
  exact (bandFor_eq_iff hdistinct hperm' _).mpr hgoverns

theorem bandFor_selects_descending :
    GoverningRow (3 / 2) [centBand, fiveCentBand] (bandFor (3 / 2) fiveCentBand [centBand]) ∧
      (∀ band, GoverningRow (3 / 2) [centBand, fiveCentBand] band →
        band = bandFor (3 / 2) fiveCentBand [centBand]) ∧
      ∀ first' rest', (first' :: rest').Perm [centBand, fiveCentBand] →
        bandFor (3 / 2) first' rest' = bandFor (3 / 2) fiveCentBand [centBand] :=
  bandFor_selects (by decide +kernel) (List.Perm.swap _ _ _)

/-- The price `snap_price` answers, and the error it raises, do not depend on the order of the
rows. -/
theorem snapPrice_perm {price : Decimal} {table table' : List PriceIncrement}
    (hdistinct : (table.map (·.val.lowEdge)).Nodup) (hperm : table'.Perm table)
    (arith : Arithmetic) (side : OrderSide) (policy : RoundingPolicy) :
    snapPrice arith price table' side policy = snapPrice arith price table side policy := by
  cases table with
  | nil => rw [hperm.eq_nil]
  | cons first rest =>
    cases table' with
    | nil => exact absurd hperm.symm.eq_nil (List.cons_ne_nil first rest)
    | cons first' rest' =>
      have hband : bandFor price first' rest' = bandFor price first rest :=
        (bandFor_eq_iff hdistinct hperm _).mpr (bandFor_governs price first rest)
      simp only [snapPrice, hband]

end Blive
