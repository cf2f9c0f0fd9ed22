import NewApi.Channels.MultiKey
import NewApi.Foundation.Distinct
import NewApi.Foundation.Table

/-!
# Channels and abilities

The rows of the tables `channels` and `abilities`, as `model/channel.go` and
`model/ability.go` write them: an ability is a group and a model that a channel
serves, with copies of the columns that the choice of a channel reads.
-/

namespace NewApi.Routing

open Foundation
open Channels (JsonArrays getKeys countedKeys)

def channelStatusEnabled : Int := 1

def channelStatusManuallyDisabled : Int := 2

def channelStatusAutoDisabled : Int := 3

inductive MultiKeyMode where
  | random
  | polling
  | unknown
  deriving DecidableEq

structure ChannelInfo extends Channels.ChannelInfo Int where
  multiKeyPollingIndex : Int := 0
  multiKeyMode : MultiKeyMode := .unknown

/-- The entries of `other_info` that a change of status writes. -/
structure OtherInfo where
  statusReason : Option String := none
  statusTime : Option Int := none

/-- A row of `channels`.  The columns `priority` and `weight` have defaults and are never
written as `NULL`. -/
structure Channel where
  id : Nat
  key : String := ""
  status : Int
  models : String
  group : String
  priority : Int
  weight : Nat
  tag : Option String := none
  otherInfo : OtherInfo := {}
  channelInfo : ChannelInfo := {}

structure Ability where
  group : String
  model : String
  channelId : Nat
  enabled : Bool
  priority : Int
  weight : Nat
  tag : Option String
  deriving DecidableEq

open Ability

def Ability.key (ability : Ability) : String × String × Nat :=
  (ability.group, ability.model, ability.channelId)

structure Store where
  channels : Table Channel Channel.id
  abilities : Table Ability key

def Store.empty : Store where
  channels := ⟨[], List.nodup_nil⟩
  abilities := ⟨[], List.nodup_nil⟩

section

variable (channel : Channel)

def Channel.groups : List String := split ',' channel.group

def Channel.modelNames : List String := split ',' channel.models

def Channel.ability (group model : String) : Ability where
  group := group
  model := model
  channelId := channel.id
  enabled := decide (channel.status = channelStatusEnabled)
  priority := channel.priority
  weight := channel.weight
  tag := channel.tag

def Channel.pairs : List (String × String) :=
  channel.modelNames.flatMap fun model => channel.groups.map fun group => (group, model)

def abilitySetKey (pair : String × String) : String := pair.1 ++ "|" ++ pair.2

def Channel.newAbilities : List Ability :=
  (distinctBy abilitySetKey [] channel.pairs).map fun pair => channel.ability pair.1 pair.2

def Channel.addAbilities (abilities : Table Ability Ability.key) : Table Ability Ability.key :=
  channel.newAbilities.foldl Table.addMissing abilities

def deleteAbilities (id : Nat) (abilities : Table Ability key) : Table Ability key :=
  abilities.deleteWhere fun ability => decide (ability.channelId = id)

def Channel.updateAbilities (abilities : Table Ability Ability.key) : Table Ability Ability.key :=
  channel.addAbilities (deleteAbilities channel.id abilities)

end

def hasEnabledMultiKey (keys : List String) (statusList : Nat → Option Int) : Bool :=
  (List.range keys.length).any fun i =>
    decide ((statusList i).getD channelStatusEnabled = channelStatusEnabled)

structure StatusCall where
  channelId : Nat
  usingKey : String
  status : Int
  reason : String := ""
  now : Int := 0

def ChannelInfo.setKeyStatus (info : ChannelInfo) (i : Nat) (call : StatusCall) : ChannelInfo :=
  if call.status = channelStatusEnabled then
    { info with multiKeyStatusList := Function.update info.multiKeyStatusList i none }
  else
    { info with
      multiKeyStatusList := Function.update info.multiKeyStatusList i (some call.status)
      multiKeyDisabledReason := Function.update info.multiKeyDisabledReason i (some call.reason)
      multiKeyDisabledTime := Function.update info.multiKeyDisabledTime i (some call.now) }

section

variable (json : JsonArrays)

def handlerMultiKeyUpdate (channel : Channel) (call : StatusCall) : Channel :=
  let keys := getKeys json channel.key
  if keys.length = 0 then { channel with status := call.status }
  else
    match keys.idxOf? call.usingKey with
    | none =>
      if call.usingKey ≠ "" then channel
      else
        { channel with
          status := call.status
          otherInfo := ⟨some call.reason, some call.now⟩ }
    | some keyIndex =>
      let info := channel.channelInfo.setKeyStatus keyIndex call
      if hasEnabledMultiKey keys info.multiKeyStatusList = false then
        { channel with
          channelInfo := info
          status := channelStatusAutoDisabled
          otherInfo := ⟨some "All keys are disabled", some call.now⟩ }
      else if call.status = channelStatusEnabled then
        { channel with channelInfo := info, status := channelStatusEnabled }
      else { channel with channelInfo := info }

def Channel.withStatus (channel : Channel) (call : StatusCall) : Channel :=
  if channel.channelInfo.isMultiKey = true then handlerMultiKeyUpdate json channel call
  else
    { channel with
      status := call.status
      otherInfo := ⟨some call.reason, some call.now⟩ }

def updateAbilityStatus (id : Nat) (status : Bool) (abilities : Table Ability key) :
    Table Ability key :=
  abilities.update
    (fun ability => if ability.channelId = id then { ability with enabled := status } else ability)
    (by
      intro ability
      split <;> rfl)

def Store.updateChannelStatus (s : Store) (call : StatusCall) : Store × Bool :=
  match s.channels.get call.channelId with
  | none => (s, false)
  | some channel =>
    if channel.status = call.status then (s, false)
    else
      let channel' := channel.withStatus json call
      let shouldUpdateAbilities :=
        !channel.channelInfo.isMultiKey || decide (channel.status ≠ channel'.status)
      ({ channels := s.channels.save channel'
         abilities :=
           if shouldUpdateAbilities = true then
             updateAbilityStatus call.channelId (decide (call.status = channelStatusEnabled))
               s.abilities
           else s.abilities },
        true)

end

end NewApi.Routing
