/-
  ButtonPanel.Proofs.Panel.Document — the document of a configuration. Every codec that it is
  made of is lawful, so any configuration comes back from its compact text, valid or not, and
  reading that text in full says of it just what checking it says (`panelConfig_round_trip`).
-/

import ButtonPanel.Panel.Load
import ButtonPanel.Proofs.Json.Codec

namespace ButtonPanel.Document

open Json (LawfulMember)

theorem lawful_buttonId : buttonId.Lawful := by
  refine Json.Codec.lawful_integer (fun id => ?_) fun id => ?_
  · have hlt := id.toNat_lt
    have hid : ButtonId.ofNat id.toNat = id := ButtonId.toNat_inj.mp (ButtonId.toNat_ofNat hlt)
    have hread : ButtonId.ofInt id.toNat = .ok id := by
      rw [ButtonId.ofInt, if_pos (by omega), Int.toNat_natCast, hid]
    rw [hread]
    rfl
  · have hlt := id.toNat_lt
    have hmin : Int64.minValue.toInt ≤ 0 := by decide
    have hmax : 256 ≤ Json.Numeral.maxWord := by decide
    exact ⟨by omega, by omega⟩

theorem lawful_command : command.Lawful := Json.Codec.lawful_choice Command.ofName?_name

theorem lawful_mode : mode.Lawful := Json.Codec.lawful_choice Mode.ofName?_name

theorem lawful_homeValue : homeValue.Lawful := by
  refine Json.Codec.lawful_integer (fun v => ?_) fun v => ?_
  · rw [if_pos ⟨v.minValue_le_toInt, v.toInt_le⟩, Int32.ofInt_toInt]
  · have hmin : Int64.minValue.toInt ≤ Int32.minValue.toInt := by decide
    have hmax : Int32.maxValue.toInt ≤ Json.Numeral.maxWord := by decide
    exact ⟨Int.le_trans hmin v.minValue_le_toInt, Int.le_trans v.toInt_le hmax⟩

theorem lawful_queueDepth : queueDepth.Lawful := by
  refine Json.Codec.lawful_integer (fun d => ?_) fun d => ?_
  · have hlt := d.toNat_lt
    rw [if_pos ⟨by omega, by exact_mod_cast hlt⟩, Int.toNat_natCast]
    exact congrArg some (UInt64.ofNat_toNat)
  · have hlt := d.toNat_lt
    have hmin : Int64.minValue.toInt ≤ 0 := by decide
    have hmax : Json.Numeral.maxWord = 2 ^ 64 - 1 := by decide
    exact ⟨by omega, by omega⟩

/-! ## Records -/

def settingsMembers : List (LawfulMember Settings Settings) :=
  [.of "mode" lawful_mode (fun s m => { s with mode := m }) (·.mode),
   .of "command" lawful_command (fun s c => { s with command := c }) (·.command),
   .of "home_value" lawful_homeValue (fun s v => { s with homeValue := v }) (·.homeValue)]

theorem settings_eq : settings = .record (settingsMembers.map (·.toMember)) default some := rfl

theorem lawful_settings : settings.Lawful := by
  rw [settings_eq]
  exact LawfulMember.lawful_record (by decide) fun s => rfl

def widgetMembers : List (LawfulMember WidgetDraft Widget) :=
  [.of "id" lawful_buttonId (fun d id => { d with id? := some id }) (·.id),
   .of "label" Json.Codec.lawful_text (fun d label => { d with label? := some label }) (·.label)]

theorem widget_eq : widget = .record (widgetMembers.map (·.toMember)) {} WidgetDraft.finish := rfl

theorem lawful_widget : widget.Lawful := by
  rw [widget_eq]
  exact LawfulMember.lawful_record (by decide) fun w => rfl

def panelConfigMembers : List (LawfulMember PanelConfig PanelConfig) :=
  [.of "buttons" lawful_widget.list (fun c bs => { c with buttons := bs }) (·.buttons),
   .of "listener" lawful_settings (fun c s => { c with listener := s }) (·.listener),
   .of "queue_depth" lawful_queueDepth (fun c d => { c with queueDepth := d }) (·.queueDepth)]

theorem panelConfig_eq : panelConfig = .record (panelConfigMembers.map (·.toMember)) default some := rfl

theorem lawful_panelConfig : panelConfig.Lawful := by
  rw [panelConfig_eq]
  exact LawfulMember.lawful_record (by decide) fun c => rfl

/-- Any configuration comes back from its compact text. Reading that text in full gives the
    configuration if it is valid and else reports what is wrong with it, never that the text is
    no document of a configuration. -/
theorem panelConfig_round_trip (c : PanelConfig) :
    panelConfig.decode (panelConfig.encode c) = .ok c ∧
    (PanelConfig.parse (panelConfig.encode c) = .ok c ↔ c.validate = .ok ()) ∧
    (∀ why, c.validate = .error why → PanelConfig.parse (panelConfig.encode c) = .error (.invalid why)) ∧
    ∀ why, PanelConfig.parse (panelConfig.encode c) ≠ .error (.malformed why) := by
  have hdecode := lawful_panelConfig.decode_encode c
  refine ⟨hdecode, ?_⟩
  cases hv : c.validate with
  | ok u =>
    have hparse : PanelConfig.parse (panelConfig.encode c) = .ok c := by
      simp only [PanelConfig.parse, hdecode, hv]
    rw [hparse]
    exact ⟨⟨fun _ => rfl, fun _ => rfl⟩, nofun, nofun⟩
  | error e =>
    have hparse : PanelConfig.parse (panelConfig.encode c) = .error (.invalid e) := by
      simp only [PanelConfig.parse, hdecode, hv]
    rw [hparse]
    refine ⟨⟨nofun, nofun⟩, fun why h => ?_, nofun⟩
    cases h
    rfl

example : panelConfig.encode { buttons := [⟨.ofNat 255, "a\"\n\x01é"⟩], queueDepth := 18446744073709551615 } =
    "\x7b\"buttons\":[\x7b\"id\":255,\"label\":\"a\\\"\\n\\u0001é\"\x7d],\"listener\":" ++
      "\x7b\"mode\":\"home\",\"command\":\"esc\",\"home_value\":1\x7d,\"queue_depth\":18446744073709551615\x7d" := by
  decide +kernel

end ButtonPanel.Document
