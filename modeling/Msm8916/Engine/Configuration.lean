import Msm8916.Config.Agreement
import Msm8916.Lib.Transition

/-!
`loc_eng_configuration_update` of `loc_eng.cpp` and what the modem hears of it. The
framework's thread reads the buffer into `gps_conf`, queues messages and then puts
most of `gps_conf` back; the message task may run at any time after the first of
these steps.
-/

namespace Msm8916.Engine

open Config Transition

variable {F : Type}

/-- The fields of `loc_gps_cfg_s_type`. -/
inductive GpsParam
  | INTERMEDIATE_POS
  | ACCURACY_THRES
  | SUPL_VER
  | SUPL_MODE
  | CAPABILITIES
  | LPP_PROFILE
  | XTRA_VERSION_CHECK
  | XTRA_SERVER_1
  | XTRA_SERVER_2
  | XTRA_SERVER_3
  | USE_EMERGENCY_PDN_FOR_EMERGENCY_SUPL
  | NMEA_PROVIDER
  | GPS_LOCK
  | A_GLONASS_POS_PROTOCOL_SELECT
  | AGPS_CERT_WRITABLE_MASK
deriving DecidableEq, Repr

/-- `gps_conf`, by the addresses of its fields. -/
abbrev GpsConf (F : Type) := ConfMemory GpsParam Empty F

def gps_conf_table : List (LocParam GpsParam Empty) :=
  [⟨"GPS_LOCK".toList, some .GPS_LOCK, none, 'n'⟩,
    ⟨"SUPL_VER".toList, some .SUPL_VER, none, 'n'⟩,
    ⟨"LPP_PROFILE".toList, some .LPP_PROFILE, none, 'n'⟩,
    ⟨"A_GLONASS_POS_PROTOCOL_SELECT".toList, some .A_GLONASS_POS_PROTOCOL_SELECT, none, 'n'⟩,
    ⟨"AGPS_CERT_WRITABLE_MASK".toList, some .AGPS_CERT_WRITABLE_MASK, none, 'n'⟩,
    ⟨"SUPL_MODE".toList, some .SUPL_MODE, none, 'n'⟩,
    ⟨"INTERMEDIATE_POS".toList, some .INTERMEDIATE_POS, none, 'n'⟩,
    ⟨"ACCURACY_THRES".toList, some .ACCURACY_THRES, none, 'n'⟩,
    ⟨"NMEA_PROVIDER".toList, some .NMEA_PROVIDER, none, 'n'⟩,
    ⟨"CAPABILITIES".toList, some .CAPABILITIES, none, 'n'⟩,
    ⟨"XTRA_VERSION_CHECK".toList, some .XTRA_VERSION_CHECK, none, 'n'⟩,
    ⟨"XTRA_SERVER_1".toList, some .XTRA_SERVER_1, none, 's'⟩,
    ⟨"XTRA_SERVER_2".toList, some .XTRA_SERVER_2, none, 's'⟩,
    ⟨"XTRA_SERVER_3".toList, some .XTRA_SERVER_3, none, 's'⟩,
    ⟨"USE_EMERGENCY_PDN_FOR_EMERGENCY_SUPL".toList,
      some .USE_EMERGENCY_PDN_FOR_EMERGENCY_SUPL, none, 'n'⟩]

def gpsCapabilityMeasurements : UInt32 := 0x40

/-- `getCarrierCapabilities`, from the two fields it reads. -/
def getCarrierCapabilities (CAPABILITIES SUPL_MODE : UInt32) : UInt32 :=
  let carrierMSA := 0x2
  let carrierMSB := 0x1
  let gpsConfMSA := 0x4
  let gpsConfMSB := 0x2
  let capabilities := CAPABILITIES
  let capabilities :=
    if SUPL_MODE &&& carrierMSA ≠ carrierMSA then capabilities &&& ~~~gpsConfMSA else capabilities
  if SUPL_MODE &&& carrierMSB ≠ carrierMSB then capabilities &&& ~~~gpsConfMSB else capabilities

/-- The messages that have to do with `gps_conf`, and `LocEngUp`. -/
inductive ConfMsg
  | suplVer (mSuplVer : UInt32)
  | lppConfig (mLppConfig : UInt32)
  | aGlonassProtocol (mAGlonassProtocl : UInt32)
  | suplMode
  | gnssConstellationConfig
  | up
deriving DecidableEq, Repr

/-- What the modem, and the ULP for the capabilities, are told. -/
inductive ConfCall
  | setSUPLVersion (version : UInt32)
  | setLPPConfig (profile : UInt32)
  | setAGLONASSProtocol (protocol : UInt32)
  | setCapabilities (capabilities : UInt32)
deriving DecidableEq, Repr

/-- The adapter's part of the state: whether there is one, and its messages. -/
structure Configured (F : Type) where
  gps_conf : GpsConf F
  adapter : Bool
  msgQ : List ConfMsg

/-- A call of `loc_eng_configuration_update`: `gps_conf_tmp` lives until it returns,
and `told` is what the modem has been told since the call began. -/
structure Update (F : Type) extends Configured F where
  gps_conf_tmp : Option (GpsConf F)
  told : List ConfCall

/-- The messages that announce what has changed since the snapshot. -/
def announcements (gps_conf_tmp gps_conf : GpsConf F) : List ConfMsg :=
  (if gps_conf_tmp.num .SUPL_VER ≠ gps_conf.num .SUPL_VER then
    [.suplVer (gps_conf.num .SUPL_VER)] else []) ++
  (if gps_conf_tmp.num .LPP_PROFILE ≠ gps_conf.num .LPP_PROFILE then
    [.lppConfig (gps_conf.num .LPP_PROFILE)] else []) ++
  (if gps_conf_tmp.num .A_GLONASS_POS_PROTOCOL_SELECT ≠
      gps_conf.num .A_GLONASS_POS_PROTOCOL_SELECT then
    [.aGlonassProtocol (gps_conf.num .A_GLONASS_POS_PROTOCOL_SELECT)] else []) ++
  (if gps_conf_tmp.num .SUPL_MODE ≠ gps_conf.num .SUPL_MODE then [.suplMode] else [])

/-- `loc_eng_configuration_update` until it has queued its messages; there is no
`config_data` if it is `NULL`. -/
def configurationUpdate (reader : FloatReader F) (state : Configured F)
    (config_data : Option (List Char)) (length : Int) : Update F :=
  match config_data with
  | none => ⟨state, none, []⟩
  | some config_data =>
      if 0 < length then
        let gps_conf := (locUpdateConf reader (config_data.take length.toNat) gps_conf_table
          state.gps_conf).1
        -- it is possible that HAL is not init'ed at this time
        let queued := if state.adapter then announcements state.gps_conf gps_conf else []
        ⟨{ state with gps_conf := gps_conf, msgQ := state.msgQ ++ queued }, state.gps_conf, []⟩
      else
        ⟨state, none, []⟩

/-- The fields that are not put back. -/
def copied : List GpsParam :=
  [.SUPL_VER, .LPP_PROFILE, .A_GLONASS_POS_PROTOCOL_SELECT, .GPS_LOCK]

/-- The end of `loc_eng_configuration_update`. -/
def restore (gps_conf_tmp gps_conf : GpsConf F) : GpsConf F :=
  copied.foldl (fun tmp param => tmp.setNum param (gps_conf.num param)) gps_conf_tmp

/-- The messages of `loc_eng_reinit` that have to do with `gps_conf`. -/
def reinit (gps_conf : GpsConf F) : List ConfMsg :=
  [.gnssConstellationConfig, .suplVer (gps_conf.num .SUPL_VER),
    .lppConfig (gps_conf.num .LPP_PROFILE),
    .aGlonassProtocol (gps_conf.num .A_GLONASS_POS_PROTOCOL_SELECT)]

namespace Update

/-- `proc` of a message; `measurements` is what the modem answers to
`gnssConstellationConfig`. -/
def proc (update : Update F) (measurements : Bool) : ConfMsg → Update F
  | .suplVer mSuplVer => { update with told := update.told ++ [.setSUPLVersion mSuplVer] }
  | .lppConfig mLppConfig => { update with told := update.told ++ [.setLPPConfig mLppConfig] }
  | .aGlonassProtocol protocol =>
      { update with told := update.told ++ [.setAGLONASSProtocol protocol] }
  | .suplMode =>
      { update with
        told := update.told ++ [.setCapabilities (getCarrierCapabilities
          (update.gps_conf.num .CAPABILITIES) (update.gps_conf.num .SUPL_MODE))] }
  | .gnssConstellationConfig =>
      if measurements then
        { update with
          gps_conf := update.gps_conf.setNum .CAPABILITIES
            (update.gps_conf.num .CAPABILITIES ||| gpsCapabilityMeasurements) }
      else
        update
  | .up => { update with msgQ := update.msgQ ++ reinit update.gps_conf }

/-- What can happen after `loc_eng_configuration_update` has queued its messages: the
message task works on its next message, the modem has restarted, or the call ends. -/
inductive Label
  | process (measurements : Bool)
  | engineUp
  | finish
deriving DecidableEq, Repr

def step (update : Update F) : Label → Option (Update F)
  | .process measurements =>
      match update.msgQ with
      | [] => none
      | msg :: msgQ => some (proc { update with msgQ := msgQ } measurements msg)
  | .engineUp =>
      if update.adapter then some { update with msgQ := update.msgQ ++ [.up] } else none
  | .finish =>
      match update.gps_conf_tmp with
      | none => none
      | some gps_conf_tmp =>
          some { update with
            gps_conf := restore gps_conf_tmp update.gps_conf
            gps_conf_tmp := none }

end Update

/-! ## What the modem has been told -/

/-- The settings whose changes are announced. -/
def announced : List GpsParam :=
  [.SUPL_VER, .LPP_PROFILE, .A_GLONASS_POS_PROTOCOL_SELECT, .SUPL_MODE]

def ConfCall.setting : ConfCall → GpsParam
  | .setSUPLVersion _ => .SUPL_VER
  | .setLPPConfig _ => .LPP_PROFILE
  | .setAGLONASSProtocol _ => .A_GLONASS_POS_PROTOCOL_SELECT
  | .setCapabilities _ => .SUPL_MODE

/-- The call delivers the value of its setting. -/
def ConfCall.Delivers (value : UInt32) : ConfCall → Prop
  | .setSUPLVersion version => version = value
  | .setLPPConfig profile => profile = value
  | .setAGLONASSProtocol protocol => protocol = value
  | .setCapabilities capabilities =>
      ∃ CAPABILITIES, capabilities = getCarrierCapabilities CAPABILITIES value

/-- The last of the calls that has to do with a setting. -/
def lastTold (param : GpsParam) : List ConfCall → Option ConfCall :=
  lastWrite fun call => if call.setting = param then some call else none

/-- The call that a message is going to make, with a value it carries itself. -/
def ConfMsg.call : ConfMsg → Option ConfCall
  | .suplVer mSuplVer => some (.setSUPLVersion mSuplVer)
  | .lppConfig mLppConfig => some (.setLPPConfig mLppConfig)
  | .aGlonassProtocol protocol => some (.setAGLONASSProtocol protocol)
  | .suplMode | .gnssConstellationConfig | .up => none

namespace Update

/-- A setting has its new value in `gps_conf`, and once all messages are processed
the modem has been told it. -/
structure Agrees (param : GpsParam) (value : UInt32) (update : Update F) : Prop where
  stored : update.gps_conf.num param = value
  delivered : update.msgQ = [] →
    ∃ call, lastTold param update.told = some call ∧ call.Delivers value

/-- Apart from the settings and `GPS_LOCK`, the fields are as they were. -/
structure Unchanged (before after : GpsConf F) : Prop where
  num : ∀ param, param ∉ announced → param ≠ .GPS_LOCK → after.num param = before.num param
  str : after.str = before.str
  dbl : after.dbl = before.dbl

end Update

/-- The settings that messages carry the value of. -/
def carried : List GpsParam := [.SUPL_VER, .LPP_PROFILE, .A_GLONASS_POS_PROTOCOL_SELECT]

theorem restore_num (gps_conf_tmp gps_conf : GpsConf F) (param : GpsParam) :
    (restore gps_conf_tmp gps_conf).num param =
      if param ∈ copied then gps_conf.num param else gps_conf_tmp.num param := by
  cases param <;> rfl

theorem lastTold_append (param : GpsParam) (first second : List ConfCall) :
    lastTold param (first ++ second) = (lastTold param second).or (lastTold param first) :=
  lastWrite_append _ first second

theorem lastTold_of_last {param : GpsParam} {first second : List ConfCall} {value : UInt32}
    (h : ∃ call, lastTold param second = some call ∧ call.Delivers value) :
    ∃ call, lastTold param (first ++ second) = some call ∧ call.Delivers value := by
  obtain ⟨call, hcall, hvalue⟩ := h
  refine ⟨call, ?_, hvalue⟩
  rw [lastTold_append, hcall, Option.some_or]

theorem lastTold_reinit (gps_conf : GpsConf F) {param : GpsParam} (h : param ∈ carried) :
    ∃ call, lastTold param ((reinit gps_conf).filterMap ConfMsg.call) = some call ∧
      call.Delivers (gps_conf.num param) := by
  simp only [carried, List.mem_cons, List.not_mem_nil, or_false] at h
  rcases h with rfl | rfl | rfl
  · exact ⟨_, rfl, rfl⟩
  · exact ⟨_, rfl, rfl⟩
  · exact ⟨_, rfl, rfl⟩

theorem lastTold_announcements {gps_conf_tmp gps_conf : GpsConf F} {param : GpsParam}
    (h : param ∈ carried) (hchanged : gps_conf_tmp.num param ≠ gps_conf.num param) :
    ∃ call, lastTold param ((announcements gps_conf_tmp gps_conf).filterMap ConfMsg.call) =
      some call ∧ call.Delivers (gps_conf.num param) := by
  simp only [carried, List.mem_cons, List.not_mem_nil, or_false] at h
  unfold announcements
  rcases h with rfl | rfl | rfl
  · rw [if_pos hchanged]
    refine ⟨.setSUPLVersion _, ?_, rfl⟩
    split_ifs <;> rfl
  · rw [if_pos hchanged]
    refine ⟨.setLPPConfig _, ?_, rfl⟩
    split_ifs <;> rfl
  · rw [if_pos hchanged]
    refine ⟨.setAGLONASSProtocol _, ?_, rfl⟩
    split_ifs <;> rfl

namespace Update

/-- The settings that messages carry keep their new values, and what `gps_conf` was is
at hand until the call ends. -/
structure Holds (before new : GpsConf F) (update : Update F) : Prop where
  kept : ∀ param ∈ carried, update.gps_conf.num param = new.num param
  snapshot : ∀ gps_conf_tmp, update.gps_conf_tmp = some gps_conf_tmp → gps_conf_tmp = before

/-- The last call about a setting, made or to be made, delivers the value. -/
def Pending (param : GpsParam) (value : UInt32) (update : Update F) : Prop :=
  ∃ call, lastTold param (update.told ++ update.msgQ.filterMap ConfMsg.call) = some call ∧
    call.Delivers value

theorem proc_num (update : Update F) (measurements : Bool) (msg : ConfMsg) {param : GpsParam}
    (h : param ≠ .CAPABILITIES) :
    (update.proc measurements msg).gps_conf.num param = update.gps_conf.num param := by
  cases msg with
  | gnssConstellationConfig =>
      cases measurements with
      | false => rfl
      | true => exact Function.update_of_ne h _ _
  | _ => rfl

theorem proc_tmp (update : Update F) (measurements : Bool) (msg : ConfMsg) :
    (update.proc measurements msg).gps_conf_tmp = update.gps_conf_tmp := by
  cases msg with
  | gnssConstellationConfig => cases measurements <;> rfl
  | _ => rfl

theorem ne_capabilities {param : GpsParam} (h : param ∈ carried) : param ≠ .CAPABILITIES := by
  rintro rfl
  exact absurd h (by decide)

theorem ne_suplMode {param : GpsParam} (h : param ∈ carried) : param ≠ .SUPL_MODE := by
  rintro rfl
  exact absurd h (by decide)

theorem mem_copied {param : GpsParam} (h : param ∈ carried) : param ∈ copied :=
  (show carried ⊆ copied by decide) h

theorem Holds.step {before new : GpsConf F} {update next : Update F} {label : Label}
    (h : Holds before new update) (hstep : update.step label = some next) :
    Holds before new next := by
  cases label with
  | process measurements =>
      simp only [Update.step] at hstep
      split at hstep
      · cases hstep
      · rename_i msg msgQ hqueue
        obtain rfl := Option.some.inj hstep
        constructor
        · intro param hparam
          rw [proc_num _ _ _ (ne_capabilities hparam)]
          exact h.kept param hparam
        · rw [proc_tmp]
          exact h.snapshot
  | engineUp =>
      simp only [Update.step] at hstep
      split at hstep
      · obtain rfl := Option.some.inj hstep
        exact ⟨h.kept, h.snapshot⟩
      · cases hstep
  | finish =>
      simp only [Update.step] at hstep
      split at hstep
      · cases hstep
      · rename_i gps_conf_tmp htmp
        obtain rfl := Option.some.inj hstep
        constructor
        · intro param hparam
          rw [restore_num, if_pos (mem_copied hparam)]
          exact h.kept param hparam
        · exact nofun

/-- A message that is processed makes its call, and a restart repeats the settings
with their new values. -/
theorem Pending.proc {before new : GpsConf F} {update : Update F} {msg : ConfMsg}
    {msgQ : List ConfMsg} {param : GpsParam} (hholds : Holds before new update)
    (hparam : param ∈ carried) (hqueue : update.msgQ = msg :: msgQ)
    (h : Pending param (new.num param) update) (measurements : Bool) :
    Pending param (new.num param) (Update.proc { update with msgQ := msgQ } measurements msg) := by
  unfold Pending at h
  rw [hqueue, List.filterMap_cons] at h
  cases msg with
  | suplVer mSuplVer =>
      simpa [Pending, Update.proc, ConfMsg.call] using h
  | lppConfig mLppConfig =>
      simpa [Pending, Update.proc, ConfMsg.call] using h
  | aGlonassProtocol protocol =>
      simpa [Pending, Update.proc, ConfMsg.call] using h
  | gnssConstellationConfig =>
      cases measurements with
      | false => exact h
      | true => exact h
  | suplMode =>
      obtain ⟨call, hcall, hvalue⟩ := h
      refine ⟨call, ?_, hvalue⟩
      rw [ConfMsg.call, lastTold_append] at hcall
      have hother : ∀ capabilities, lastTold param [.setCapabilities capabilities] = none := by
        intro capabilities
        rw [lastTold, lastWrite_eq_none]
        intro other hmem
        rw [List.mem_singleton.mp hmem, if_neg]
        exact (ne_suplMode hparam).symm
      rw [Update.proc, lastTold_append, lastTold_append, hother, Option.none_or]
      exact hcall
  | up =>
      have htail := lastTold_reinit update.gps_conf hparam
      rw [hholds.kept param hparam] at htail
      unfold Pending Update.proc
      rw [List.filterMap_append, ← List.append_assoc]
      exact lastTold_of_last htail

theorem Pending.step {before new : GpsConf F} {update next : Update F} {label : Label}
    {param : GpsParam} (hholds : Holds before new update) (hparam : param ∈ carried)
    (h : Pending param (new.num param) update) (hstep : update.step label = some next) :
    Pending param (new.num param) next := by
  cases label with
  | process measurements =>
      simp only [Update.step] at hstep
      split at hstep
      · cases hstep
      · rename_i msg msgQ hqueue
        obtain rfl := Option.some.inj hstep
        exact h.proc hholds hparam hqueue measurements
  | engineUp =>
      simp only [Update.step] at hstep
      split at hstep
      · obtain rfl := Option.some.inj hstep
        unfold Pending
        rw [List.filterMap_append, List.filterMap_cons_none rfl, List.filterMap_nil,
          List.append_nil]
        exact h
      · cases hstep
  | finish =>
      simp only [Update.step] at hstep
      split at hstep
      · cases hstep
      · obtain rfl := Option.some.inj hstep
        exact h

end Update

section Call

variable (reader : FloatReader F) (state : Configured F) (config_data : Option (List Char))
  (length : Int)

/-- After the call has queued its messages, either the snapshot is at hand or the call
has done nothing. -/
theorem configurationUpdate_holds : Update.Holds state.gps_conf
    (configurationUpdate reader state config_data length).gps_conf
    (configurationUpdate reader state config_data length) := by
  constructor
  · exact fun _ _ => rfl
  · intro gps_conf_tmp htmp
    unfold configurationUpdate at htmp
    split at htmp
    · cases htmp
    · split at htmp
      · exact (Option.some.inj htmp).symm
      · cases htmp

/-- A call that changes a field has a snapshot and, with an adapter, queues what has
changed. -/
theorem configurationUpdate_changed {param : GpsParam}
    (hchanged : state.gps_conf.num param ≠
      (configurationUpdate reader state config_data length).gps_conf.num param) :
    (configurationUpdate reader state config_data length).gps_conf_tmp = some state.gps_conf ∧
    (state.adapter = true →
      (configurationUpdate reader state config_data length).msgQ = state.msgQ ++
        announcements state.gps_conf
          (configurationUpdate reader state config_data length).gps_conf) := by
  unfold configurationUpdate at hchanged ⊢
  split at hchanged
  · exact absurd rfl hchanged
  · split at hchanged
    · rename_i hlength
      rw [if_pos hlength]
      refine ⟨rfl, fun hadapter => ?_⟩
      dsimp only
      rw [if_pos hadapter]
    · exact absurd rfl hchanged

theorem configurationUpdate_pending {param : GpsParam} (hparam : param ∈ carried)
    (hadapter : state.adapter = true)
    (hchanged : state.gps_conf.num param ≠
      (configurationUpdate reader state config_data length).gps_conf.num param) :
    Update.Pending param
      ((configurationUpdate reader state config_data length).gps_conf.num param)
      (configurationUpdate reader state config_data length) := by
  unfold Update.Pending
  rw [(configurationUpdate_changed reader state config_data length hchanged).2 hadapter,
    List.filterMap_append, ← List.append_assoc]
  exact lastTold_of_last (lastTold_announcements hparam hchanged)

end Call

namespace Update

theorem mem_carried {param : GpsParam} (h : param ∈ announced) (hne : param ≠ .SUPL_MODE) :
    param ∈ carried := by
  simp only [announced, List.mem_cons, List.not_mem_nil, or_false] at h
  rcases h with rfl | rfl | rfl | rfl
  · decide
  · decide
  · decide
  · exact absurd rfl hne

/-- What the invariants say of a setting that messages carry. -/
theorem Holds.agrees {before new : GpsConf F} {update : Update F} {param : GpsParam}
    (h : Holds before new update) (hparam : param ∈ carried)
    (hpending : Pending param (new.num param) update) :
    Agrees param (new.num param) update := by
  constructor
  · exact h.kept param hparam
  · intro hempty
    unfold Pending at hpending
    rw [hempty, List.filterMap_nil, List.append_nil] at hpending
    exact hpending

/-- The end of the call puts back all but the settings and `GPS_LOCK`. -/
theorem Holds.unchanged {before new : GpsConf F} {update after : Update F}
    (h : Holds before new update) (hstep : update.step .finish = some after) :
    Unchanged before after.gps_conf := by
  simp only [Update.step] at hstep
  split at hstep
  · cases hstep
  · rename_i gps_conf_tmp htmp
    obtain rfl := h.snapshot gps_conf_tmp htmp
    obtain rfl := Option.some.inj hstep
    constructor
    · intro param hannounced hlock
      have hcopied : param ∉ copied := by
        intro hmem
        rcases List.mem_append.mp (show param ∈ carried ++ [.GPS_LOCK] from hmem) with hmem | hmem
        · exact hannounced ((show carried ⊆ announced by decide) hmem)
        · exact hlock (List.mem_singleton.mp hmem)
      rw [restore_num, if_neg hcopied]
    · rfl
    · rfl

end Update

section Run

variable (reader : FloatReader F) (state : Configured F) (config_data : Option (List Char))
  (length : Int)

theorem configurationUpdate_ends {param : GpsParam}
    (hchanged : state.gps_conf.num param ≠
      (configurationUpdate reader state config_data length).gps_conf.num param) :
    ∃ final, exec Update.step (configurationUpdate reader state config_data length) [.finish] =
        some final ∧
      final.gps_conf = restore state.gps_conf
        (configurationUpdate reader state config_data length).gps_conf := by
  have htmp := (configurationUpdate_changed reader state config_data length hchanged).1
  have hfinish : Update.step (configurationUpdate reader state config_data length) .finish =
      some { configurationUpdate reader state config_data length with
        gps_conf := restore state.gps_conf
          (configurationUpdate reader state config_data length).gps_conf
        gps_conf_tmp := none } := by
    simp only [Update.step, htmp]
  exact ⟨_, exec_cons_eq_some.mpr ⟨_, hfinish, exec_nil Update.step _⟩, rfl⟩

variable {labels : List Update.Label} {final : Update F}

theorem holds_of_run
    (hrun : exec Update.step (configurationUpdate reader state config_data length) labels =
      some final) :
    Update.Holds state.gps_conf (configurationUpdate reader state config_data length).gps_conf
      final :=
  invariant_of_step (fun _ _ _ h hstep => h.step hstep)
    (configurationUpdate_holds reader state config_data length) ⟨labels, hrun⟩

/-- A setting that messages carry agrees with the modem at the end of every run. -/
theorem agrees_of_run {param : GpsParam} (hadapter : state.adapter = true)
    (hparam : param ∈ carried)
    (hchanged : state.gps_conf.num param ≠
      (configurationUpdate reader state config_data length).gps_conf.num param)
    (hrun : exec Update.step (configurationUpdate reader state config_data length) labels =
      some final) :
    Update.Agrees param
      ((configurationUpdate reader state config_data length).gps_conf.num param) final := by
  have hinvariant := invariant_of_step (I := fun update =>
      Update.Holds state.gps_conf
        (configurationUpdate reader state config_data length).gps_conf update ∧
      Update.Pending param
        ((configurationUpdate reader state config_data length).gps_conf.num param) update)
    (fun _ _ _ h hstep => ⟨h.1.step hstep, h.2.step h.1 hparam hstep⟩)
    ⟨configurationUpdate_holds reader state config_data length,
      configurationUpdate_pending reader state config_data length hparam hadapter hchanged⟩
    ⟨labels, hrun⟩
  exact hinvariant.1.agrees hparam hinvariant.2

end Run

/-- An update of the configuration and all that follows agree with the modem, and
leave the other fields alone, exactly if there is no adapter or the SUPL mode stays as
it was. -/
theorem configuration_agrees_iff (reader : FloatReader F) (state : Configured F)
    (config_data : Option (List Char)) (length : Int) :
    (∀ labels final,
      exec Update.step (configurationUpdate reader state config_data length) labels =
        some final →
      (state.adapter = true → ∀ param ∈ announced, state.gps_conf.num param ≠
          (configurationUpdate reader state config_data length).gps_conf.num param →
        Update.Agrees param
          ((configurationUpdate reader state config_data length).gps_conf.num param) final) ∧
      ∀ after, Update.step final .finish = some after →
        Update.Unchanged state.gps_conf after.gps_conf) ↔
    state.adapter = false ∨ state.gps_conf.num .SUPL_MODE =
      (configurationUpdate reader state config_data length).gps_conf.num .SUPL_MODE := by
  constructor
  · intro hall
    by_contra hcond
    rw [not_or, Bool.not_eq_false] at hcond
    obtain ⟨hadapter, hchanged⟩ := hcond
    -- the call ends before anything else happens, and puts the old mode back
    obtain ⟨final, hrun, hfinal⟩ :=
      configurationUpdate_ends reader state config_data length hchanged
    have hagrees := (hall _ _ hrun).1 hadapter .SUPL_MODE (by decide) hchanged
    apply hchanged
    rw [← hagrees.stored, hfinal, restore_num, if_neg (by decide)]
  · intro hcond labels final hrun
    refine ⟨fun hadapter param hparam hchanged => ?_, fun after => ?_⟩
    · have hne : param ≠ .SUPL_MODE := by
        rintro rfl
        rcases hcond with hnone | hsame
        · rw [hadapter] at hnone
          cases hnone
        · exact hchanged hsame
      exact agrees_of_run reader state config_data length hadapter
        (Update.mem_carried hparam hne) hchanged hrun
    · exact (holds_of_run reader state config_data length hrun).unchanged

/-- The configuration with SUPL mode 3, and all else zero. -/
def bothModes : GpsConf Int :=
  ⟨fun param => if param = .SUPL_MODE then 3 else 0, fun _ => [], fun _ => 0, nofun⟩

/-- The modem is told the old SUPL mode when its message is processed after the end of
the call. -/
theorem supl_mode_put_back :
    ¬ ∀ (state : Configured Int) (config_data : Option (List Char)) (length : Int),
      ∀ labels final,
        exec Update.step (configurationUpdate intReader state config_data length) labels =
          some final →
        (state.adapter = true → ∀ param ∈ announced, state.gps_conf.num param ≠
            (configurationUpdate intReader state config_data length).gps_conf.num param →
          Update.Agrees param
            ((configurationUpdate intReader state config_data length).gps_conf.num param)
            final) ∧
        ∀ after, Update.step final .finish = some after →
          Update.Unchanged state.gps_conf after.gps_conf := by
  intro hall
  have hrun := hall ⟨bothModes, true, []⟩ (some "SUPL_MODE=1\n".toList) 12 [.finish] _ rfl
  have hmode := (hrun.1 rfl .SUPL_MODE (by decide) (by decide)).stored
  exact absurd hmode (by decide)

end Msm8916.Engine
