import Mathlib.Algebra.Ring.Int.Defs
import NewApi.Foundation.Run

/-!
# Redemption codes

`Redeem` of `model/redemption.go` reads the code in a transaction, adds its quota to the user and
saves the code as used.  The lock it asks for is an option of `gorm` v1 that v2 ignores, so the
read sees the committed row, whatever other transactions are about to write.
-/

namespace NewApi.Redemptions

open Foundation

inductive RedemptionStatus where
  | enabled
  | disabled
  | used
  deriving DecidableEq

structure Redemption where
  key : String
  status : RedemptionStatus
  quota : Int
  expiredTime : Int := 0
  redeemedTime : Int := 0
  usedUserId : Int := 0

structure RedemptionDB where
  redemption : Redemption
  quotas : Int → Int

structure RedeemCall where
  key : String
  userId : Int
  now : Int

inductive RedeemStage where
  | checked
  | credited
  | saved
  deriving DecidableEq

structure RedeemTx where
  redemption : Redemption
  userId : Int
  now : Int
  stage : RedeemStage := .checked

def readRedemption (call : RedeemCall) (db : RedemptionDB) : Except String RedeemTx :=
  if call.key = "" then .error "未提供兑换码"
  else if call.userId = 0 then .error "无效的 user id"
  else if db.redemption.key ≠ call.key then .error "无效的兑换码"
  else if db.redemption.status ≠ .enabled then .error "该兑换码已被使用"
  else if db.redemption.expiredTime ≠ 0 ∧ db.redemption.expiredTime < call.now then
    .error "该兑换码已过期"
  else .ok { redemption := db.redemption, userId := call.userId, now := call.now }

def RedeemStage.next : RedeemStage → RedeemStage
  | .checked => .credited
  | _ => .saved

def RedeemTx.redeemed (t : RedeemTx) : Redemption :=
  { t.redemption with redeemedTime := t.now, status := .used, usedUserId := t.userId }

def redeem : TxProtocol RedeemCall RedemptionDB RedeemTx where
  read call db := (readRedemption call db).toOption
  next t _ := some { t with stage := t.stage.next }
  ready t := t.stage = .saved
  write t db :=
    { redemption := t.redeemed
      quotas := Function.update db.quotas t.userId (db.quotas t.userId + t.redemption.quota) }

def FindsEnabled (_ : RedeemTx) (db : RedemptionDB) : Prop := db.redemption.status = .enabled

instance (t : RedeemTx) (db : RedemptionDB) : Decidable (FindsEnabled t db) :=
  inferInstanceAs (Decidable (_ = _))

def credited (log : List RedeemTx) (userId : Int) : Int :=
  ((log.filter fun t => t.userId = userId).map fun t => t.redemption.quota).sum

structure CreditedOnce (first db : RedemptionDB) (log : List RedeemTx) : Prop where
  once : log.length ≤ 1
  quotas : ∀ userId, db.quotas userId = first.quotas userId + credited log userId

private theorem credited_concat (log : List RedeemTx) (t : RedeemTx) (userId : Int) :
    credited (log ++ [t]) userId =
      credited log userId + if t.userId = userId then t.redemption.quota else 0 := by
  unfold credited
  by_cases huser : t.userId = userId <;> simp [huser]

/-- At most one transaction increases a quota if every transaction that commits finds the code
still enabled.  Nothing in the code enforces this. -/
theorem redemption_credited_once (first : RedemptionDB) (events : List (TxEvent RedeemCall))
    (h : Admits redeem.step (redeem.CommitsValid FindsEnabled) { db := first } events) :
    CreditedOnce first (run redeem.step { db := first } events).db
      (run redeem.step { db := first } events).log := by
  have hall := TxProtocol.invariant
    (I := fun db log => CreditedOnce first db log ∧ (db.redemption.status = .enabled → log = []))
    ?_ ?_ h
  · exact hall.1
  · rintro db log t ⟨hone, hnone⟩ - hfinds
    obtain rfl := hnone hfinds
    refine ⟨⟨Nat.le_refl 1, ?_⟩, nofun⟩
    intro userId
    rw [credited_concat, ← Int.add_assoc, ← hone.quotas userId]
    by_cases huser : t.userId = userId
    · subst huser
      simp [redeem]
    · simp [redeem, huser, Function.update_of_ne (Ne.symm huser)]
  · exact ⟨⟨Nat.zero_le 1, fun userId => by simp [credited]⟩, fun _ => rfl⟩

def giftCode : Redemption where
  key := "gift"
  status := .enabled
  quota := 500

def giftCall (userId : Int) : RedeemCall := ⟨"gift", userId, 1700000000⟩

theorem redemption_credited_once_repeated : (run redeem.step { db := ⟨giftCode, fun _ => 0⟩ }
      [.read 0 (giftCall 7), .next 0, .next 0, .commit 0, .read 1 (giftCall 8), .next 1, .next 1,
        .commit 1]).log.length ≤ 1 := by
  apply (redemption_credited_once _ _ _).once
  decide

/-- Two users redeem one code: both transactions read it before one of them commits. -/
theorem redemption_credited_once_counterexample :
    ∃ s : TxWorld RedemptionDB RedeemTx, s = run redeem.step { db := ⟨giftCode, fun _ => 0⟩ }
        [.read 0 (giftCall 7), .read 1 (giftCall 8), .next 0, .next 0, .commit 0, .next 1, .next 1,
          .commit 1] ∧
      s.log.length = 2 ∧ s.db.quotas 7 = 500 ∧ s.db.quotas 8 = 500 := ⟨_, rfl, by decide⟩

end NewApi.Redemptions
