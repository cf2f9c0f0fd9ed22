import NewApi.Foundation.Scaling
import NewApi.Tasks.Remix

/-!
# The ratios of a task

The loops over `OtherRatios` in `RelayTaskSubmit` and `recalcQuotaFromRatios` of
`relay/relay_task.go`.  The loops cut off after each ratio, in the order in which the
map happens to be visited, so that both results are read as scalings by a list.
-/

namespace NewApi.Remix

open Foundation List PriceData

def values (ratios : List (String × ℚ)) : List ℚ := ratios.map Prod.snd

def Ratios.product (ratios : Ratios) : ℚ := (values ratios.rows).prod

theorem values_cons (ratio : String × ℚ) (ratios : List (String × ℚ)) :
    values (ratio :: ratios) = ratio.2 :: values ratios := rfl

theorem values_visit (order : MapOrder) (ratios : List (String × ℚ)) :
    (values (order.visit ratios)).Perm (values ratios) := (order.perm ratios).map Prod.snd

variable {ratios : List (String × ℚ)}

theorem values_pos (hpos : ∀ ratio ∈ ratios, 0 < ratio.2) (order : MapOrder) :
    ∀ r ∈ values (order.visit ratios), 0 < r := by
  intro r hr
  obtain ⟨ratio, hratio, rfl⟩ := mem_map.mp hr
  exact hpos ratio ((order.perm ratios).mem_iff.mp hratio)

theorem applyRatios_eq (ratios : List (String × ℚ)) (quota : Int) :
    applyRatios ratios quota = scaleAll (values ratios) quota := by
  rw [applyRatios, scaleAll, values, foldl_map]
  congr
  funext quota ratio
  split
  · rfl
  · next hone => rw [not_not.mp hone, scale_one]

def divisors (attempt : Attempt) (price : PriceData) : List ℚ :=
  (values (attempt.divided.visit price.otherRatios.rows)).map (·⁻¹)

def restoredQuota (attempt : Attempt) (price : PriceData) : Int :=
  scaleAll (divisors attempt price) price.quota

private theorem foldl_divide (hpos : ∀ ratio ∈ ratios, 0 < ratio.2) (quota : Int) :
    ratios.foldl (fun quota ratio =>
        if ratio.2 ≠ 1 ∧ ratio.2 > 0 then truncate (quota / ratio.2) else quota) quota =
      scaleAll ((values ratios).map (·⁻¹)) quota := by
  induction ratios generalizing quota with
  | nil => rfl
  | cons ratio ratios ih =>
    obtain ⟨hfirst, hrest⟩ := forall_mem_cons.mp hpos
    rw [foldl_cons, ih hrest, values_cons, map_cons, scaleAll_cons]
    by_cases hone : ratio.2 = 1
    · rw [if_neg (by simp [hone]), hone, inv_one, scale_one]
    · rw [if_pos ⟨hone, hfirst⟩, scale, ← div_eq_mul_inv]

private theorem foldl_multiply (ratios : List (String × ℚ)) (quota : ℚ) :
    ratios.foldl (fun quota ratio => if ratio.2 ≠ 1 then quota * ratio.2 else quota) quota =
      quota * (values ratios).prod := by
  induction ratios generalizing quota with
  | nil => rw [values, map_nil, prod_nil, mul_one, foldl_nil]
  | cons ratio ratios ih =>
    rw [foldl_cons, ih, values_cons, prod_cons, ← mul_assoc]
    split
    · rfl
    · next hone => rw [not_not.mp hone, mul_one]

section

variable {price : PriceData}

theorem recalcQuotaFromRatios_eq (attempt : Attempt)
    (hpos : ∀ ratio ∈ price.otherRatios.rows, 0 < ratio.2) (ratios : Ratios) :
    recalcQuotaFromRatios attempt price ratios =
      truncate (restoredQuota attempt price * ratios.product) := by
  have hdivided : ∀ ratio ∈ attempt.divided.visit price.otherRatios.rows, 0 < ratio.2 := by
    intro ratio hratio
    exact hpos ratio ((attempt.divided.perm _).mem_iff.mp hratio)
  unfold recalcQuotaFromRatios
  dsimp only
  rw [foldl_divide hdivided, foldl_multiply, (values_visit attempt.multiplied ratios.rows).prod_eq]
  rfl

def MapOrder.ofPerm {rows list : List (String × ℚ)} (h : list.Perm rows) : MapOrder where
  visit l := if l = rows then list else l
  perm l := by
    split
    · next heq => rw [heq]; exact h
    · exact List.Perm.refl l

theorem exists_visit (ratios : Ratios) {list : List ℚ} (h : list.Perm (values ratios.rows)) :
    ∃ order : MapOrder, values (order.visit ratios.rows) = list := by
  have hrows : List.Forall₂ (fun r (ratio : String × ℚ) => r = ratio.2) (values ratios.rows)
      ratios.rows := by
    rw [values, forall₂_map_left_iff, forall₂_same]
    intro ratio _
    rfl
  obtain ⟨rows, hlist, hperm⟩ := perm_comp_forall₂ h hrows
  refine ⟨MapOrder.ofPerm hperm, ?_⟩
  have hvisit : (MapOrder.ofPerm hperm).visit ratios.rows = rows := if_pos rfl
  have hvalues : List.Forall₂ (· = ·) list (values rows) := by
    rw [values, forall₂_map_right_iff]
    exact hlist
  rw [forall₂_eq_eq_eq] at hvalues
  rw [hvisit, hvalues]

private theorem orderFree_values_iff (ratios : Ratios) :
    OrderFree (values ratios.rows) ↔ ∀ (quota : Int) (first second : MapOrder),
      applyRatios (first.visit ratios.rows) quota =
        applyRatios (second.visit ratios.rows) quota := by
  constructor
  · intro h quota first second
    rw [applyRatios_eq, applyRatios_eq]
    exact h _ _ (values_visit first _) (values_visit second _) quota
  · intro h first second hfirst hsecond quota
    obtain ⟨one, rfl⟩ := exists_visit ratios hfirst
    obtain ⟨other, rfl⟩ := exists_visit ratios hsecond
    rw [← applyRatios_eq, ← applyRatios_eq]
    exact h quota one other

/--
The quota of a submission does not depend on the order of the map exactly if any two of the
ratios are equal, both whole or both reciprocals of whole numbers, or one of them is 1.
-/
theorem applyRatios_order_iff (ratios : Ratios) (hpos : ∀ ratio ∈ ratios.rows, 0 < ratio.2) :
    (∀ (quota : Int) (first second : MapOrder),
      applyRatios (first.visit ratios.rows) quota = applyRatios (second.visit ratios.rows) quota) ↔
    ratios.rows.Pairwise fun one other => Compatible one.2 other.2 := by
  have hvalues : ∀ r ∈ values ratios.rows, 0 < r := by
    intro r hr
    obtain ⟨ratio, hratio, rfl⟩ := mem_map.mp hr
    exact hpos ratio hratio
  rw [← orderFree_values_iff, orderFree_iff hvalues, values, pairwise_map]

/-- Eight seconds of three videos: both factors are whole. -/
theorem applyRatios_order_whole :
    Compatible 8 3 ∧ ∀ (quota : Int) (first second : MapOrder),
      applyRatios (first.visit ((noRatios.put ("seconds", 8)).put ("n", 3)).rows) quota =
        applyRatios (second.visit ((noRatios.put ("seconds", 8)).put ("n", 3)).rows) quota := by
  constructor
  · decide +kernel
  · apply (applyRatios_order_iff _ _).mpr
    · decide +kernel
    · decide +kernel

def reversed : MapOrder := ⟨List.reverse, reverse_perm⟩

/-- Eight seconds at a large size cost two units more if the seconds come first. -/
theorem applyRatios_order_large :
    applyRatios (inOrder.visit ((noRatios.put ("seconds", 8)).put ("size", 1.666667)).rows) 50000 ≠
      applyRatios (reversed.visit ((noRatios.put ("seconds", 8)).put ("size", 1.666667)).rows)
        50000 := by
  decide +kernel

private theorem foldl_addOtherRatio_pos (ratios : List (String × ℚ))
    (hpos : ∀ ratio ∈ price.otherRatios.rows, 0 < ratio.2) :
    ∀ ratio ∈ (ratios.foldl addOtherRatio price).otherRatios.rows, 0 < ratio.2 := by
  induction ratios generalizing price with
  | nil => exact hpos
  | cons ratio ratios ih =>
    apply ih
    intro other hother
    unfold addOtherRatio at hother
    split at hother
    · exact hpos other hother
    next hratio =>
    rcases (Table.mem_put _).mp hother with ⟨hkept, -⟩ | rfl
    · exact hpos other hkept
    · exact not_le.mp hratio

end

theorem foldl_addOtherRatio (ratios : List (String × ℚ)) (price : PriceData) :
    ratios.foldl addOtherRatio price =
      { price with otherRatios := (ratios.foldl addOtherRatio price).otherRatios } := by
  induction ratios generalizing price with
  | nil => rfl
  | cons ratio ratios ih =>
    rw [foldl_cons, ih]
    unfold addOtherRatio
    split <;> rfl

section

variable (settings : Settings) (adaptor : TaskAdaptor) (attempt : Attempt) (action : Action)
  (name : String) (base : PriceData)

theorem otherRatios_attemptPrice :
    (attemptPrice settings adaptor attempt action name base).otherRatios =
      ((attempt.estimated.visit (adaptor.estimateBilling action).rows).foldl
        addOtherRatio base).otherRatios := by
  unfold attemptPrice
  dsimp only
  split <;> rfl

private theorem attemptPrice_pos (hbase : base.otherRatios = noRatios) :
    ∀ ratio ∈ (attemptPrice settings adaptor attempt action name base).otherRatios.rows,
      0 < ratio.2 := by
  rw [otherRatios_attemptPrice]
  apply foldl_addOtherRatio_pos
  rw [hbase]
  intro ratio hratio
  cases hratio

private theorem quota_attemptPrice :
    (attemptPrice settings adaptor attempt action name base).quota =
      if name ∈ settings.taskPricePatches then base.quota
      else scaleAll (values (attempt.applied.visit
        (attemptPrice settings adaptor attempt action name base).otherRatios.rows)) base.quota := by
  rw [otherRatios_attemptPrice]
  unfold attemptPrice
  dsimp only
  split
  · rw [foldl_addOtherRatio]
  · dsimp only
    rw [applyRatios_eq, foldl_addOtherRatio]

end

section

variable (attempt : Attempt) {price : PriceData}

private theorem divisors_pos (hpos : ∀ ratio ∈ price.otherRatios.rows, 0 < ratio.2) :
    ∀ d ∈ divisors attempt price, 0 < d := by
  intro d hd
  obtain ⟨r, hr, rfl⟩ := mem_map.mp hd
  exact inv_pos.mpr (values_pos hpos attempt.divided r hr)

theorem prod_values_visit (order : MapOrder) (ratios : Ratios) :
    (values (order.visit ratios.rows)).prod = ratios.product :=
  (values_visit order ratios.rows).prod_eq

section

variable (hpos : ∀ ratio ∈ price.otherRatios.rows, 0 < ratio.2)
include hpos

private theorem prod_mul_divisors (order : MapOrder) :
    (values (order.visit price.otherRatios.rows)).prod * (divisors attempt price).prod = 1 := by
  have hne := (prod_pos (values_pos hpos order)).ne'
  rw [prod_values_visit] at hne
  rw [divisors, ← prod_inv, prod_values_visit, prod_values_visit]
  exact mul_inv_cancel₀ hne

private theorem forall_recalcQuota_iff (base : Int) :
    (∀ adjusted : Ratios, recalcQuotaFromRatios attempt price adjusted =
      truncate (base * adjusted.product)) ↔ restoredQuota attempt price = base := by
  constructor
  · intro h
    have hnone := h noRatios
    have hproduct : noRatios.product = 1 := rfl
    rwa [recalcQuotaFromRatios_eq attempt hpos, hproduct, mul_one, mul_one, truncate_intCast,
      truncate_intCast] at hnone
  · intro h adjusted
    rw [recalcQuotaFromRatios_eq attempt hpos, h]

end

end

/-- The base can be found again: the ratios had been applied and nothing was cut off on either
way, or they had not been applied and cancel each other. -/
def Recovers (settings : Settings) (attempt : Attempt) (name : String) (base : Int)
    (price : PriceData) : Prop :=
  if name ∈ settings.taskPricePatches then
    base = 0 ∨ price.otherRatios.product = 1 ∧ NothingCut (divisors attempt price) base
  else
    NothingCut (values (attempt.applied.visit price.otherRatios.rows)) base ∧
      NothingCut (divisors attempt price) price.quota

instance (settings : Settings) (attempt : Attempt) (name : String) (base : Int)
    (price : PriceData) : Decidable (Recovers settings attempt name base price) := by
  unfold Recovers
  infer_instance

/--
A price adjusted after the submission is the base times the new ratios, and the old ratios
give the old price, exactly if the base can be found again.
-/
theorem recalcQuotaFromRatios_iff (settings : Settings) (adaptor : TaskAdaptor) (attempt : Attempt)
    (action : Action) (name : String) (base : PriceData) (hbase : base.otherRatios = noRatios) :
    ((∀ adjusted : Ratios,
        recalcQuotaFromRatios attempt (attemptPrice settings adaptor attempt action name base)
          adjusted = truncate (base.quota * adjusted.product)) ∧
      recalcQuotaFromRatios attempt (attemptPrice settings adaptor attempt action name base)
        (attemptPrice settings adaptor attempt action name base).otherRatios =
        (attemptPrice settings adaptor attempt action name base).quota) ↔
    Recovers settings attempt name base.quota
      (attemptPrice settings adaptor attempt action name base) := by
  have hpos := attemptPrice_pos settings adaptor attempt action name base hbase
  have hquota := quota_attemptPrice settings adaptor attempt action name base
  generalize attemptPrice settings adaptor attempt action name base = price at hpos hquota ⊢
  have hdivisors := divisors_pos attempt hpos
  have happlied := values_pos hpos attempt.applied
  have hinverse := prod_mul_divisors attempt hpos attempt.applied
  rw [forall_recalcQuota_iff attempt hpos, recalcQuotaFromRatios_eq attempt hpos, restoredQuota,
    Recovers]
  rw [← prod_values_visit attempt.applied price.otherRatios]
  by_cases hpatched : name ∈ settings.taskPricePatches
  · rw [if_pos hpatched] at hquota ⊢
    rw [hquota, ← scaleAll_unapplied_iff happlied hdivisors hinverse]
    apply and_congr_right
    intro hkept
    rw [hkept]
  rw [if_neg hpatched] at hquota ⊢
  rw [hquota, ← scaleAll_back_iff happlied hdivisors hinverse]
  constructor
  · intro h
    exact h.1
  · intro hback
    refine ⟨hback, ?_⟩
    -- nothing is cut off, so the price is the exact product
    have hexact := (scaleAll_back_iff happlied hdivisors hinverse _).mp hback
    rw [hback, ← (cast_scaleAll_eq_iff happlied _).mpr hexact.1, truncate_intCast]

def fixedRatios (ratios : Ratios) : TaskAdaptor where
  platform := "sora"
  validateRequestAndSetAction := .ok
  estimateBilling := fun _ => ratios

def tenthPrice : PriceData := { modelPrice := 1 / 10, usePrice := true, quota := 50000 }

def eightSeconds : Ratios := noRatios.put ("seconds", 8)

def largeVideo : Ratios := noRatios.put ("size", 1.666667)

def priceWith (settings : Settings) (ratios : Ratios) : PriceData :=
  attemptPrice settings (fixedRatios ratios) remixAttempt (.other "generate") "sora-2" tenthPrice

/-- Eight seconds are divided out without a remainder. -/
theorem recalcQuotaFromRatios_seconds :
    (∀ adjusted : Ratios,
      recalcQuotaFromRatios remixAttempt (priceWith tenthPerCall eightSeconds)
        adjusted = truncate (50000 * adjusted.product)) ∧
    recalcQuotaFromRatios remixAttempt (priceWith tenthPerCall eightSeconds)
        (priceWith tenthPerCall eightSeconds).otherRatios =
      (priceWith tenthPerCall eightSeconds).quota :=
  (recalcQuotaFromRatios_iff tenthPerCall (fixedRatios eightSeconds)
    remixAttempt (.other "generate") "sora-2" tenthPrice rfl).mpr (by decide +kernel)

def patchedPerCall : Settings := { tenthPerCall with taskPricePatches := ["sora-2"] }

/-- A large size is charged 83333, and 83331 when it is adjusted to the same size.  Of a model
that is charged without ratios, eight seconds give the price of one. -/
theorem recalcQuotaFromRatios_large :
    (priceWith tenthPerCall largeVideo).quota = 83333 ∧
    truncate (50000 * largeVideo.product) = 83333 ∧
    recalcQuotaFromRatios remixAttempt (priceWith tenthPerCall largeVideo) largeVideo = 83331 ∧
    (priceWith patchedPerCall eightSeconds).quota = 50000 ∧
    truncate (50000 * eightSeconds.product) = 400000 ∧
    recalcQuotaFromRatios remixAttempt (priceWith patchedPerCall eightSeconds)
      eightSeconds = 50000 := by
  decide +kernel

end NewApi.Remix
