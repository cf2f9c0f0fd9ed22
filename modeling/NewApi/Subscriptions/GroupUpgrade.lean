import NewApi.Subscriptions.Lifecycle

/-!
# Undoing group upgrades

A subscription remembers only the group its owner had when it was bought.  A
user who buys one upgrade at a time falls back to the original group when the
upgrade ends; with overlapping upgrades the chain of remembered groups breaks.
-/

namespace NewApi.Subscriptions

open Foundation List Lifecycle UserSubscription

namespace UserSubscription

def Upgrades (userId : Int) (sub : UserSubscription) : Prop :=
  sub.userId = userId ∧ sub.upgradeGroup ≠ ""

def ActiveUpgrade (userId : Int) (sub : UserSubscription) : Prop :=
  sub.Upgrades userId ∧ sub.status = .active

def ExpiredUpgrade (userId : Int) (sub : UserSubscription) : Prop :=
  sub.Upgrades userId ∧ sub.status = .expired

instance (userId : Int) (sub : UserSubscription) : Decidable (sub.ActiveUpgrade userId) := by
  unfold ActiveUpgrade Upgrades
  infer_instance

def RestoresTo (group : String) (sub : UserSubscription) : Prop :=
  trimSpace sub.upgradeGroup = sub.upgradeGroup ∧
    (sub.upgradeGroup = group ∧ sub.prevUserGroup = "" ∨
      sub.upgradeGroup ≠ group ∧ sub.prevUserGroup = group)

end UserSubscription

def NoActiveUpgrade (db : SubscriptionDB) (userId : Int) : Prop :=
  ∀ sub ∈ db.subs.rows, ¬ sub.ActiveUpgrade userId

instance (db : SubscriptionDB) (userId : Int) : Decidable (NoActiveUpgrade db userId) := by
  unfold NoActiveUpgrade
  infer_instance

/-- Time does not run backwards, and the user buys an upgrade only while no other
one is active, and one that does not end before it begins. -/
def UpgradeSafe (zone userId : Int) (s : Lifecycle) (e : LifecycleEvent) : Prop :=
  s.clock ≤ e.now ∧
    match e with
    | .purchase now buyer plan _ =>
      buyer = userId → trimSpace plan.upgradeGroup ≠ "" →
        NoActiveUpgrade s.db userId ∧
          ∀ endUnix, calcPlanEndTime zone now plan = .ok endUnix → now ≤ endUnix
    | _ => True

structure RowsInv (userId : Int) (group : String) (clock : Int) (db : SubscriptionDB) : Prop where
  shape : ∀ sub ∈ db.subs.rows, sub.Upgrades userId → sub.RestoresTo group
  single : ∀ a ∈ db.subs.rows, ∀ b ∈ db.subs.rows,
    a.ActiveUpgrade userId → b.ActiveUpgrade userId → a.id = b.id
  past : ∀ sub ∈ db.subs.rows, sub.ExpiredUpgrade userId → sub.endTime ≤ clock
  -- the active upgrade will be the last one to have expired
  order : ∀ a ∈ db.subs.rows, ∀ b ∈ db.subs.rows,
    a.ActiveUpgrade userId → b.ExpiredUpgrade userId → b.endTime ≤ a.endTime ∧ b.id < a.id

def GroupOk (userId : Int) (group : String) (db : SubscriptionDB) : Prop :=
  db.groups userId = group ∨
    ∃ a ∈ db.subs.rows, a.ActiveUpgrade userId ∧ db.groups userId = a.upgradeGroup

/-- What expiry, cancellation and deletion do to the user's upgrades: each is an
old one, an active one is unchanged, an expired one was expired or has run out. -/
def Shrinks (userId clock : Int) (db db' : SubscriptionDB) : Prop :=
  ∀ sub' ∈ db'.subs.rows, sub'.Upgrades userId →
    ∃ sub ∈ db.subs.rows, sub.Upgrades userId ∧ sub.id = sub'.id ∧
      sub.upgradeGroup = sub'.upgradeGroup ∧ sub.prevUserGroup = sub'.prevUserGroup ∧
      (sub'.status = .active → sub = sub') ∧
      (sub'.status = .expired → sub.endTime = sub'.endTime ∧
        (sub.status = .expired ∨ sub.status = .active ∧ sub.endTime ≤ clock))

theorem RowsInv.shrinks {userId clock clock' : Int} {group : String}
    {db db' : SubscriptionDB} (h : RowsInv userId group clock db) (hclock : clock ≤ clock')
    (hs : Shrinks userId clock' db db') : RowsInv userId group clock' db' where
  shape := by
    intro sub' hsub' hup
    obtain ⟨sub, hsub, hold, -, hupgrade, hprev, -⟩ := hs sub' hsub' hup
    have hshape := h.shape sub hsub hold
    unfold UserSubscription.RestoresTo at hshape ⊢
    rw [← hupgrade, ← hprev]
    exact hshape
  single := by
    intro a' ha' b' hb' haup hbup
    obtain ⟨a, ha, -, -, -, -, haeq, -⟩ := hs a' ha' haup.1
    obtain ⟨b, hb, -, -, -, -, hbeq, -⟩ := hs b' hb' hbup.1
    obtain rfl := haeq haup.2
    obtain rfl := hbeq hbup.2
    exact h.single a ha b hb haup hbup
  past := by
    intro e' he' heup
    obtain ⟨e, he, hold, -, -, -, -, hexpired⟩ := hs e' he' heup.1
    obtain ⟨hend, hbefore | ⟨-, hdue⟩⟩ := hexpired heup.2
    · have hpast := h.past e he ⟨hold, hbefore⟩
      omega
    · omega
  order := by
    intro a' ha' e' he' haup heup
    obtain ⟨a, ha, -, -, -, -, haeq, -⟩ := hs a' ha' haup.1
    obtain rfl := haeq haup.2
    obtain ⟨e, he, hold, hid, -, -, -, hexpired⟩ := hs e' he' heup.1
    obtain ⟨hend, hbefore | ⟨hactive, -⟩⟩ := hexpired heup.2
    · have horder := h.order a ha e he haup ⟨hold, hbefore⟩
      omega
    -- it was the active upgrade, which has not expired
    have hsame : a = e' := by
      apply db'.subs.eq_of_key_eq ha' he'
      rw [← hid]
      exact h.single a ha e he haup ⟨hold, hactive⟩
    have hstatus := haup.2
    rw [hsame, heup.2] at hstatus
    contradiction

/-! ## Falling back -/

variable {sub : UserSubscription}

section

variable {userId now : Int}

theorem activeUpgrade_of_keepsGroup (h : sub.keepsGroup userId now = true) :
    sub.ActiveUpgrade userId := by
  simp only [keepsGroup, Bool.and_eq_true, decide_eq_true_eq] at h
  obtain ⟨⟨⟨howner, hactive⟩, -⟩, hup⟩ := h
  exact ⟨⟨howner, hup⟩, hactive⟩

theorem mem_expiredUpgrades {rows : List UserSubscription} :
    (sub ∈ rows.filter fun sub => decide (sub.userId = userId) &&
      decide (sub.status = .expired) && decide (sub.upgradeGroup ≠ "")) ↔
      sub ∈ rows ∧ sub.ExpiredUpgrade userId := by
  simp only [mem_filter, Bool.and_eq_true, decide_eq_true_eq]
  constructor
  · rintro ⟨hrow, ⟨howner, hstatus⟩, hup⟩
    exact ⟨hrow, ⟨howner, hup⟩, hstatus⟩
  · rintro ⟨hrow, ⟨howner, hup⟩, hstatus⟩
    exact ⟨hrow, ⟨howner, hstatus⟩, hup⟩

theorem eq_last_of_longest {db : SubscriptionDB} {last a : UserSubscription}
    (hlast : lastBy endTimeOrder (db.subs.rows.filter fun sub => decide (sub.userId = userId) &&
      decide (sub.status = .expired) && decide (sub.upgradeGroup ≠ "")) = some last)
    (ha : a ∈ db.subs.rows) (hexpired : a.ExpiredUpgrade userId)
    (hmax : ∀ b ∈ db.subs.rows, b.ExpiredUpgrade userId → b.id ≠ a.id →
      b.endTime ≤ a.endTime ∧ b.id < a.id) : a = last := by
  obtain ⟨hrow, hup⟩ := mem_expiredUpgrades.mp (lastBy_mem endTimeOrder hlast)
  apply db.subs.eq_of_key_eq ha hrow
  by_contra hid
  have hlt := hmax last hrow hup (Ne.symm hid)
  have hle := le_lastBy endTimeOrder hlast (mem_expiredUpgrades.mpr ⟨ha, hexpired⟩)
  unfold endTimeOrder at hle
  omega

private theorem downgrade_cases {db db' : SubscriptionDB} {target : String}
    (h : downgradeUserGroupForSubscriptionTx db sub now = .ok (db', target)) :
    db' = db ∧
        (trimSpace sub.upgradeGroup = "" ∨
          db.groups sub.userId ≠ trimSpace sub.upgradeGroup ∨
          (∃ other ∈ db.subs.rows, other.keepsGroup sub.userId now = true ∧ other.id ≠ sub.id) ∨
          trimSpace sub.prevUserGroup = "" ∨ trimSpace sub.prevUserGroup = db.groups sub.userId) ∨
      db' = { db with
          groups := Function.update db.groups sub.userId (trimSpace sub.prevUserGroup) } ∧
        trimSpace sub.upgradeGroup ≠ "" ∧ trimSpace sub.prevUserGroup ≠ "" := by
  simp only [downgradeUserGroupForSubscriptionTx] at h
  by_cases hblank : trimSpace sub.upgradeGroup = ""
  · rw [if_pos hblank] at h
    exact .inl ⟨(Prod.mk.inj (Except.ok.inj h)).1.symm, .inl hblank⟩
  rw [if_neg hblank, ite_error_eq_ok] at h
  replace h := h.2
  by_cases hother : db.groups sub.userId ≠ trimSpace sub.upgradeGroup
  · rw [if_pos hother] at h
    exact .inl ⟨(Prod.mk.inj (Except.ok.inj h)).1.symm, .inr (.inl hother)⟩
  rw [if_neg hother] at h
  split at h
  · next hany =>
    obtain ⟨other, hmem, hkeeps⟩ := any_eq_true.mp hany
    simp only [Bool.and_eq_true, decide_eq_true_eq] at hkeeps
    exact .inl ⟨(Prod.mk.inj (Except.ok.inj h)).1.symm, .inr (.inr (.inl ⟨other, hmem, hkeeps⟩))⟩
  by_cases hback : trimSpace sub.prevUserGroup = "" ∨
      trimSpace sub.prevUserGroup = db.groups sub.userId
  · rw [if_pos hback] at h
    exact .inl ⟨(Prod.mk.inj (Except.ok.inj h)).1.symm, .inr (.inr (.inr hback))⟩
  · rw [if_neg hback] at h
    exact .inr ⟨(Prod.mk.inj (Except.ok.inj h)).1.symm, hblank, fun hempty => hback (.inl hempty)⟩

end

section FallBack

variable {userId : Int} {group : String} (hgroup : group ≠ "" ∧ trimSpace group = group)

include hgroup

theorem UserSubscription.RestoresTo.prev (h : sub.RestoresTo group) :
    sub.upgradeGroup = group ∧ trimSpace sub.prevUserGroup = "" ∨
      trimSpace sub.prevUserGroup = group ∧ group ≠ sub.upgradeGroup := by
  rcases h.2 with ⟨hsame, hprev⟩ | ⟨hother, hprev⟩
  · refine .inl ⟨hsame, ?_⟩
    rw [hprev]
    decide
  · refine .inr ⟨?_, hother.symm⟩
    rw [hprev]
    exact hgroup.2

theorem downgrade_user {db db' : SubscriptionDB} {now : Int} {target : String}
    (hshape : sub.Upgrades userId → sub.RestoresTo group)
    (h : downgradeUserGroupForSubscriptionTx db sub now = .ok (db', target)) :
    db'.subs = db.subs ∧
      (db'.groups userId = db.groups userId ∨ db'.groups userId = group) ∧
      (sub.Upgrades userId → db.groups userId = sub.upgradeGroup →
        (∀ other ∈ db.subs.rows, other.ActiveUpgrade userId → other.id = sub.id) →
        db'.groups userId = group) := by
  rcases downgrade_cases h with ⟨rfl, hreason⟩ | ⟨rfl, hupgrade, hprevious⟩
  · refine ⟨rfl, .inl rfl, ?_⟩
    intro hup hcurrent honly
    have hrestores := hshape hup
    rw [hrestores.1, hup.1] at hreason
    rcases hreason with hblank | hother | ⟨other, hmem, hkeeps, hid⟩ | hback
    · exact absurd hblank hup.2
    · exact absurd hcurrent hother
    · exact absurd (honly other hmem (activeUpgrade_of_keepsGroup hkeeps)) hid
    · rcases hrestores.prev hgroup with ⟨hsame, -⟩ | ⟨hprev, -⟩
      · exact hcurrent.trans hsame
      rw [hprev] at hback
      rcases hback with hempty | hsame
      · exact absurd hempty hgroup.1
      · exact hsame.symm
  · by_cases huser : sub.userId = userId
    · have hne : sub.upgradeGroup ≠ "" := by
        intro hempty
        rw [hempty] at hupgrade
        exact hupgrade (by decide)
      have hrestored : trimSpace sub.prevUserGroup = group := by
        rcases (hshape ⟨huser, hne⟩).prev hgroup with ⟨-, hprev⟩ | ⟨hprev, -⟩
        · exact absurd hprev hprevious
        · exact hprev
      subst huser
      simp [hrestored]
    · refine ⟨rfl, .inl (Function.update_of_ne (Ne.symm huser) _ _), ?_⟩
      intro hup
      exact absurd hup.1 huser

private theorem fallBackGroup_user {db : SubscriptionDB}
    (hshape : ∀ sub ∈ db.subs.rows, sub.Upgrades userId → sub.RestoresTo group) :
    ((fallBackGroup db userId).groups userId = db.groups userId ∨
        (fallBackGroup db userId).groups userId = group) ∧
      (∀ a ∈ db.subs.rows, a.ExpiredUpgrade userId → db.groups userId = a.upgradeGroup →
        (∀ b ∈ db.subs.rows, b.ExpiredUpgrade userId → b.id ≠ a.id →
          b.endTime ≤ a.endTime ∧ b.id < a.id) →
        (fallBackGroup db userId).groups userId = group) := by
  unfold fallBackGroup
  split
  · next hnone =>
    refine ⟨.inl rfl, ?_⟩
    intro a ha hexpired
    have hsome := lastBy_isSome endTimeOrder (mem_expiredUpgrades.mpr ⟨ha, hexpired⟩)
    rw [hnone] at hsome
    cases hsome
  · next last hlast =>
    obtain ⟨hrow, hup, -⟩ := mem_expiredUpgrades.mp (lastBy_mem endTimeOrder hlast)
    have hrestores := hshape last hrow hup
    simp only [hrestores.1]
    rcases hrestores.prev hgroup with ⟨hsame, hprev⟩ | ⟨hprev, hdiff⟩
    · rw [if_pos (.inr hprev)]
      refine ⟨.inl rfl, ?_⟩
      intro a ha hexpired hcurrent hmax
      rw [hcurrent, eq_last_of_longest hlast ha hexpired hmax, hsame]
    rw [if_neg (by simp [hup.2, hprev, hgroup.1]), hprev]
    split
    · next hkeep =>
      refine ⟨.inl rfl, ?_⟩
      intro a ha hexpired hcurrent hmax
      rw [eq_last_of_longest hlast ha hexpired hmax] at hcurrent
      rcases hkeep with hother | hback
      · exact absurd hcurrent hother
      · exact hback
    · exact ⟨.inr (by simp), fun _ _ _ _ _ => by simp⟩

end FallBack

theorem RowsInv.congr {userId clock : Int} {group : String} {db db' : SubscriptionDB}
    (h : RowsInv userId group clock db) (hsubs : db'.subs = db.subs) :
    RowsInv userId group clock db' := by
  obtain ⟨hshape, hsingle, hpast, horder⟩ := h
  rw [← hsubs] at hshape hsingle hpast horder
  exact ⟨hshape, hsingle, hpast, horder⟩

/-! ## Expiry -/

private theorem expireFor_shrinks (userId v now : Int) (db : SubscriptionDB) :
    Shrinks userId now db (db.expireRows v now) := by
  intro sub' hsub' hup
  obtain ⟨sub, hsub, rfl⟩ := mem_map.mp hsub'
  refine ⟨sub, hsub, ?_⟩
  simp only [expireFor] at hup ⊢
  split
  · rename_i hdue
    rw [if_pos hdue] at hup
    simp only [due, Bool.and_eq_true, decide_eq_true_eq] at hdue
    exact ⟨hup, rfl, rfl, rfl, by simp, fun _ => ⟨rfl, .inr ⟨hdue.2.1.1, hdue.2.2⟩⟩⟩
  · rename_i hdue
    rw [if_neg hdue] at hup
    exact ⟨hup, rfl, rfl, rfl, fun _ => rfl, fun hexpired => ⟨rfl, .inl hexpired⟩⟩

private theorem fallBackGroup_other (db : SubscriptionDB) {userId v : Int} (hv : userId ≠ v) :
    (fallBackGroup db v).groups userId = db.groups userId := by
  rcases fallBackGroup_eq db v with h | ⟨group, h⟩
  · rw [h]
  · rw [h]
    exact Function.update_of_ne hv _ _

section LastActive

variable {userId clock now : Int} {group : String} {db db' : SubscriptionDB} {a : UserSubscription}

theorem RowsInv.no_keeper (h : RowsInv userId group clock db)
    (hs : Shrinks userId now db db') (ha : a ∈ db.subs.rows) (haup : a.ActiveUpgrade userId)
    (hin : { a with status := .expired } ∈ db'.subs.rows) :
    db'.subs.rows.any (·.keepsGroup userId now) = false := by
  rw [any_eq_false]
  intro b hb hkeeps
  obtain ⟨hup, hactive⟩ := activeUpgrade_of_keepsGroup hkeeps
  obtain ⟨b', hb', hbup, -, -, -, hbeq, -⟩ := hs b hb hup
  obtain rfl := hbeq hactive
  have hid := h.single b' hb' a ha ⟨hbup, hactive⟩ haup
  have hsame := db'.subs.eq_of_key_eq hb hin hid
  rw [hsame] at hactive
  contradiction

theorem RowsInv.last_expired (h : RowsInv userId group clock db) (hs : Shrinks userId now db db')
    (ha : a ∈ db.subs.rows) (haup : a.ActiveUpgrade userId) :
    ∀ b ∈ db'.subs.rows, b.ExpiredUpgrade userId → b.id ≠ a.id →
      b.endTime ≤ a.endTime ∧ b.id < a.id := by
  intro b hb hbexpired hbid
  obtain ⟨b', hb', hbup, hid, -, -, -, hbefore⟩ := hs b hb hbexpired.1
  obtain ⟨hend, hold | ⟨hactive, -⟩⟩ := hbefore hbexpired.2
  · have horder := h.order a ha b' hb' haup ⟨hbup, hold⟩
    omega
  · exact absurd (hid ▸ h.single b' hb' a ha ⟨hbup, hactive⟩ haup) hbid

end LastActive

def DbInv (userId : Int) (group : String) (clock : Int) (db : SubscriptionDB) : Prop :=
  RowsInv userId group clock db ∧ GroupOk userId group db

section

variable {userId now : Int} {group : String} {db : SubscriptionDB}

theorem GroupOk.expireRows_other {v : Int} (hok : GroupOk userId group db) (hv : v ≠ userId) :
    GroupOk userId group (db.expireRows v now) := by
  rcases hok with horiginal | ⟨a, ha, haup, hcurrent⟩
  · exact .inl horiginal
  refine .inr ⟨a, ?_, haup, hcurrent⟩
  have hin : a.expireFor v now ∈ (db.expireRows v now).subs.rows := mem_map_of_mem ha
  rw [expireFor, if_neg] at hin
  · exact hin
  · rintro ⟨howner, -⟩
    exact hv (howner.symm.trans haup.1.1)

section

variable (hgroup : group ≠ "" ∧ trimSpace group = group)
include hgroup

theorem expireUser_inv {clock : Int} (h : DbInv userId group clock db) (hclock : clock ≤ now)
    (v : Int) : DbInv userId group now (expireUser now db v).1 := by
  obtain ⟨h, hok⟩ := h
  simp only [expireUser]
  have hshrinks := expireFor_shrinks userId v now db
  have hgroups : (db.expireRows v now).groups = db.groups := rfl
  have hmem : ∀ sub ∈ db.subs.rows, sub.expireFor v now ∈ (db.expireRows v now).subs.rows :=
    fun sub hsub => mem_map_of_mem hsub
  have hother : v ≠ userId → GroupOk userId group (db.expireRows v now) := hok.expireRows_other
  generalize db.expireRows v now = expired at hshrinks hgroups hmem hother
  have hrows := h.shrinks hclock hshrinks
  by_cases hv : v = userId
  · subst hv
    have hsubs := fallBackGroup_subs expired v
    obtain ⟨hchange, hrestore⟩ := fallBackGroup_user hgroup hrows.shape
    -- whoever is still active keeps the group; otherwise the last expired decides
    rcases hok with horiginal | ⟨a, ha, haup, hcurrent⟩
    · have hkept : expired.groups v = group := by rw [hgroups, horiginal]
      split
      · exact ⟨hrows, .inl hkept⟩
      refine ⟨hrows.congr hsubs, .inl ?_⟩
      rcases hchange with hsame | hback
      · rw [hsame, hkept]
      · exact hback
    · have hcurrent' : expired.groups v = a.upgradeGroup := by rw [hgroups, hcurrent]
      have hin := hmem a ha
      by_cases hdue : a.userId = v ∧ a.due now = true
      · rw [expireFor, if_pos hdue] at hin
        have hlast := h.last_expired hshrinks ha haup
        rw [h.no_keeper hshrinks ha haup hin]
        simp only [Bool.false_eq_true, if_false]
        refine ⟨hrows.congr hsubs, .inl ?_⟩
        exact hrestore { a with status := .expired } hin ⟨haup.1, rfl⟩ hcurrent' hlast
      · rw [expireFor, if_neg hdue] at hin
        split
        · exact ⟨hrows, .inr ⟨a, hin, haup, hcurrent'⟩⟩
        refine ⟨hrows.congr hsubs, ?_⟩
        rcases hchange with hsame | hback
        · exact .inr ⟨a, hsubs ▸ hin, haup, hsame.trans hcurrent'⟩
        · exact .inl hback
  · have hsubs := fallBackGroup_subs expired v
    have hsame := fallBackGroup_other expired (Ne.symm hv)
    split
    · exact ⟨hrows, hother hv⟩
    refine ⟨hrows.congr hsubs, ?_⟩
    unfold GroupOk
    rw [hsubs, hsame]
    exact hother hv

private theorem expireUsers_inv (userIds : List Int) (h : DbInv userId group now db) :
    DbInv userId group now (expireUsers now userIds db).1 := by
  induction userIds generalizing db with
  | nil => exact h
  | cons v rest ih => exact ih (expireUser_inv hgroup h le_rfl v)

end

end

/-! ## Purchases -/

section Create

variable {zone userId clock now buyer : Int} {group source : String} {plan : SubscriptionPlan}
  {db db' : SubscriptionDB} {sub : UserSubscription} (h : DbInv userId group clock db)
  (hclock : clock ≤ now)
include h hclock

theorem Created.upgrade_inv (hc : Created zone db now userId plan sub db')
    (hup : sub.Upgrades userId) (hnone : NoActiveUpgrade db userId) (hruns : now ≤ sub.endTime) :
    DbInv userId group now db' := by
  obtain ⟨h, hok⟩ := h
  have hmem := hc.mem_rows
  have hcurrent : db.groups userId = group := by
    rcases hok with horiginal | ⟨a, ha, haup, -⟩
    · exact horiginal
    · exact absurd haup (hnone a ha)
  have hnew : ∀ row ∈ db'.subs.rows, row.ActiveUpgrade userId → row = sub := by
    intro row hrow hactive
    rcases hmem row hrow with hold | hnew
    · exact absurd hactive (hnone row hold)
    · exact hnew
  have hold : ∀ row ∈ db'.subs.rows, row.ExpiredUpgrade userId → row ∈ db.subs.rows := by
    intro row hrow hexpired
    rcases hmem row hrow with hold | rfl
    · exact hold
    have hactive := hc.active
    rw [hexpired.2] at hactive
    contradiction
  refine ⟨⟨?_, ?_, ?_, ?_⟩, ?_⟩
  · intro row hrow hrowup
    rcases hmem row hrow with hrow | rfl
    · exact h.shape row hrow hrowup
    refine ⟨by rw [hc.upgrade, trimSpace_idem], ?_⟩
    by_cases hsame : db.groups userId = row.upgradeGroup
    · exact .inl ⟨hsame.symm.trans hcurrent, (hc.kept (.inr hsame)).1⟩
    · exact .inr ⟨fun heq => hsame (hcurrent.trans heq.symm),
        (hc.moved hup.2 hsame).1.trans hcurrent⟩
  · intro a ha b hb haup hbup
    rw [hnew a ha haup, hnew b hb hbup]
  · intro e he hexpired
    have hpast := h.past e (hold e he hexpired) hexpired
    omega
  · intro a ha e he haup hexpired
    have hpast := h.past e (hold e he hexpired) hexpired
    have hfresh := hc.fresh e (hold e he hexpired)
    rw [hnew a ha haup]
    omega
  · by_cases hsame : db.groups userId = sub.upgradeGroup
    · refine .inl ?_
      rw [(hc.kept (.inr hsame)).2, hcurrent]
    · refine .inr ⟨sub, by simp [hc.rows], ⟨hup, hc.active⟩, ?_⟩
      rw [(hc.moved hup.2 hsame).2, Function.update_self]

theorem Created.plain_inv (hc : Created zone db now buyer plan sub db')
    (hup : ¬ sub.Upgrades userId) :
    DbInv userId group now db' := by
  have hgroups : db'.groups userId = db.groups userId := by
    by_cases hmoves : sub.upgradeGroup ≠ "" ∧ db.groups buyer ≠ sub.upgradeGroup
    · have hother : userId ≠ buyer := fun heq => hup ⟨hc.owner.trans heq.symm, hmoves.1⟩
      rw [(hc.moved hmoves.1 hmoves.2).2, Function.update_of_ne hother]
    · rw [(hc.kept (by tauto)).2]
  constructor
  · refine h.1.shrinks hclock ?_
    intro row hrow hrowup
    rcases hc.mem_rows row hrow with hrow | rfl
    · exact ⟨row, hrow, hrowup, rfl, rfl, rfl, fun _ => rfl, fun hexpired => ⟨rfl, .inl hexpired⟩⟩
    · exact absurd hrowup hup
  · rcases h.2 with horiginal | ⟨a, ha, haup, hcurrent⟩
    · exact .inl (hgroups.trans horiginal)
    · exact .inr ⟨a, by simp [hc.rows, ha], haup, hgroups.trans hcurrent⟩

end Create

/-! ## Cancellation and deletion -/

section

variable {userId clock now id : Int} {group message : String} {db db' : SubscriptionDB}

section

variable (h : DbInv userId group clock db) (hclock : clock ≤ now)
include h hclock

theorem ended_inv (hsub : sub ∈ db.subs.rows) (hshrinks : Shrinks userId now db db')
    (hkeep : ∀ a ∈ db.subs.rows, a.id ≠ sub.id → a ∈ db'.subs.rows)
    (hgroups : db'.groups userId = db.groups userId ∨ db'.groups userId = group)
    (hrestore : sub.ActiveUpgrade userId → db.groups userId = sub.upgradeGroup →
      db'.groups userId = group) : DbInv userId group now db' := by
  refine ⟨h.1.shrinks hclock hshrinks, ?_⟩
  rcases hgroups with hsame | hback
  · rcases h.2 with horiginal | ⟨a, ha, haup, hcurrent⟩
    · exact .inl (hsame.trans horiginal)
    by_cases hid : a.id = sub.id
    · obtain rfl := db.subs.eq_of_key_eq ha hsub hid
      exact .inl (hrestore haup hcurrent)
    · exact .inr ⟨a, hkeep a ha hid, haup, hsame.trans hcurrent⟩
  · exact .inl hback

variable (hgroup : group ≠ "" ∧ trimSpace group = group)
include hgroup

private theorem invalidate_inv
    (hcall : adminInvalidateUserSubscription db id now = .ok (db', message)) :
    DbInv userId group now db' := by
  unfold adminInvalidateUserSubscription at hcall
  split at hcall
  · cases hcall
  split at hcall
  · cases hcall
  rename_i sub hget
  obtain ⟨hsub, -⟩ := db.subs.get_eq_some_iff.mp hget
  simp only at hcall
  split at hcall
  · cases hcall
  rename_i after target hdown
  cases hcall
  obtain ⟨hsubs, hgroups, hrestore⟩ :=
    downgrade_user hgroup (fun hup => h.1.shape sub hsub hup) hdown
  refine ended_inv h hclock hsub ?_ ?_ hgroups ?_
  · intro row hrow hrowup
    rw [hsubs] at hrow
    rcases Table.mem_save _ hrow with rfl | ⟨hold, -⟩
    · exact ⟨sub, hsub, hrowup, rfl, rfl, rfl, by simp, by simp⟩
    · exact ⟨row, hold, hrowup, rfl, rfl, rfl, fun _ => rfl, fun hexpired => ⟨rfl, .inl hexpired⟩⟩
  · intro a ha hid
    rw [hsubs]
    exact mem_map.mpr ⟨a, ha, if_neg hid⟩
  · intro hactive hcurrent
    refine hrestore hactive.1 hcurrent ?_
    intro other hother hup
    rcases Table.mem_save _ hother with rfl | ⟨hold, -⟩
    · rfl
    · exact h.1.single other hold sub hsub hup hactive

private theorem delete_inv (hcall : adminDeleteUserSubscription db id now = .ok (db', message)) :
    DbInv userId group now db' := by
  unfold adminDeleteUserSubscription at hcall
  split at hcall
  · cases hcall
  split at hcall
  · cases hcall
  rename_i sub hget
  obtain ⟨hsub, hid⟩ := db.subs.get_eq_some_iff.mp hget
  split at hcall
  · cases hcall
  rename_i after target hdown
  cases hcall
  obtain ⟨hsubs, hgroups, hrestore⟩ :=
    downgrade_user hgroup (fun hup => h.1.shape sub hsub hup) hdown
  refine ended_inv h hclock hsub ?_ ?_ hgroups ?_
  · intro row hrow hrowup
    simp only [hsubs] at hrow
    have hold := (mem_filter.mp hrow).1
    exact ⟨row, hold, hrowup, rfl, rfl, rfl, fun _ => rfl, fun hexpired => ⟨rfl, .inl hexpired⟩⟩
  · intro a ha hne
    simp only [hsubs]
    exact mem_filter.mpr ⟨ha, by simpa [← hid] using hne⟩
  · intro hactive hcurrent
    exact hrestore hactive.1 hcurrent
      fun other hother hup => h.1.single other hother sub hsub hup hactive

end

def UpgradeInv (userId : Int) (group : String) (s : Lifecycle) : Prop :=
  RowsInv userId group s.clock s.db ∧ GroupOk userId group s.db

private theorem upgradeInv_step {zone : Int} {s : Lifecycle} {e : LifecycleEvent}
    (hgroup : group ≠ "" ∧ trimSpace group = group) (h : UpgradeInv userId group s)
    (hsafe : UpgradeSafe zone userId s e) : UpgradeInv userId group (s.step zone e) := by
  obtain ⟨hclock, hsafe⟩ := hsafe
  have hrefused : DbInv userId group e.now s.db :=
    ⟨{ h.1 with past := fun sub hsub hup => (h.1.past sub hsub hup).trans hclock }, h.2⟩
  unfold UpgradeInv step
  cases e with
  | purchase =>
    simp only
    split
    · rename_i db hcreate
      obtain ⟨sub, hc, -⟩ := create_created hcreate
      by_cases hup : sub.Upgrades userId
      · have hbuyer := hc.owner.symm.trans hup.1
        obtain ⟨hnone, hend⟩ := hsafe hbuyer (hc.upgrade ▸ hup.2)
        subst hbuyer
        exact hc.upgrade_inv h hclock hup hnone (hend sub.endTime hc.ends)
      · exact hc.plain_inv h hclock hup
    · exact hrefused
  | expire => exact expireUsers_inv hgroup _ hrefused
  | invalidate =>
    simp only
    split
    · rename_i db message hcall
      exact invalidate_inv h hclock hgroup hcall
    · exact hrefused
  | delete =>
    simp only
    split
    · rename_i db message hcall
      exact delete_inv h hclock hgroup hcall
    · exact hrefused

end

/-- A user who buys upgrades one after another has the original group again
whenever no upgrade is active. -/
theorem group_restored (zone userId : Int) (s : Lifecycle) (events : List LifecycleEvent)
    (hgroup : s.db.groups userId ≠ "" ∧ trimSpace (s.db.groups userId) = s.db.groups userId)
    (hnew : ∀ sub ∈ s.db.subs.rows, ¬ sub.Upgrades userId)
    (hsafe : Admits (step zone) (UpgradeSafe zone userId) s events) :
    ∀ before after, events = before ++ after →
      NoActiveUpgrade (run (step zone) s before).db userId →
      (run (step zone) s before).db.groups userId = s.db.groups userId := by
  rintro before after rfl hnone
  have hinit : UpgradeInv userId (s.db.groups userId) s := by
    refine ⟨⟨?_, ?_, ?_, ?_⟩, .inl rfl⟩
    · intro sub hsub hup
      exact absurd hup (hnew sub hsub)
    · intro a ha _ _ haup
      exact absurd haup.1 (hnew a ha)
    · intro sub hsub hup
      exact absurd hup.1 (hnew sub hsub)
    · intro a ha _ _ haup
      exact absurd haup.1 (hnew a ha)
  have hrun := Admits.invariant (UpgradeInv userId (s.db.groups userId))
    (fun _ _ h hs => upgradeInv_step hgroup h hs) hinit ((admits_append ..).mp hsafe).1
  rcases hrun.2 with horiginal | ⟨a, ha, haup, -⟩
  · exact horiginal
  · exact absurd haup (hnone a ha)

def upgradePlan (id durationDays : Int) (group : String) : SubscriptionPlan where
  id := id
  durationUnit := .day
  durationValue := durationDays
  customSeconds := 0
  maxPurchasePerUser := 0
  upgradeGroup := group
  totalAmount := 0
  quotaResetPeriod := "never"
  quotaResetCustomSeconds := 0

def defaultUsers : Lifecycle where
  clock := 0
  db :=
    { subs := ⟨[], by simp⟩
      records := fun _ => none
      plans := fun _ => none
      groups := fun _ => "default" }

def oneUpgrade : List LifecycleEvent :=
  [.purchase 10 1 (upgradePlan 7 1 "vip") "order", .expire 90000 300]

theorem group_restored_after_one :
    NoActiveUpgrade (run (step 0) defaultUsers oneUpgrade).db 1 ∧
      (run (step 0) defaultUsers oneUpgrade).db.groups 1 = "default" := by
  have hnone : NoActiveUpgrade (run (step 0) defaultUsers oneUpgrade).db 1 := by
    decide
  refine ⟨hnone, group_restored 0 1 defaultUsers oneUpgrade (by decide) ?_ ?_
    oneUpgrade [] rfl hnone⟩
  · intro sub hsub
    simp [defaultUsers] at hsub
  · refine ⟨⟨by decide, fun _ _ => ⟨by decide, ?_⟩⟩, ⟨by decide, trivial⟩, trivial⟩
    intro endUnix hend
    obtain rfl : 86410 = endUnix := Except.ok.inj (Eq.trans (by decide) hend)
    decide

def samePlanTwice : List LifecycleEvent :=
  [.purchase 10 1 (upgradePlan 7 1 "vip") "order",
    .purchase 20 1 (upgradePlan 7 1 "vip") "order", .expire 90000 300]

def shortDuringLong : List LifecycleEvent :=
  [.purchase 10 1 (upgradePlan 7 30 "vip") "order",
    .purchase 20 1 (upgradePlan 8 1 "svip") "order", .expire 90000 300,
    .expire 2600000 300]

/-- The second purchase of a plan remembers no group, and a second upgrade
remembers the first one. -/
theorem group_not_restored :
    (NoActiveUpgrade (run (step 0) defaultUsers samePlanTwice).db 1 ∧
      (run (step 0) defaultUsers samePlanTwice).db.groups 1 = "vip") ∧
    (NoActiveUpgrade (run (step 0) defaultUsers shortDuringLong).db 1 ∧
      (run (step 0) defaultUsers shortDuringLong).db.groups 1 = "svip") := by
  decide

end NewApi.Subscriptions
