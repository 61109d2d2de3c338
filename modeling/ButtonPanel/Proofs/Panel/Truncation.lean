/-
  ButtonPanel.Proofs.Panel.Truncation — documents that were cut short. All members of a
  configuration have defaults, so what is left of a document might pass for a smaller one. It never
  does: wherever the compact text of a configuration is cut, reading what is left ends in the
  fault that the text ends too early (`panelConfig_truncated_iff`).

  Numbers are the only values whose first characters are a value too. Those of a number in range
  are in range (`exhausts_buttonId`, `exhausts_homeValue`, `exhausts_queueDepth`), so no other fault
  comes before the end of the text.
-/

import ButtonPanel.Proofs.Json.Starving
import ButtonPanel.Proofs.Panel.Document

namespace ButtonPanel.Document

open Json (Codec LawfulMember Stub)

/-! ## Values -/

theorem exhausts_buttonId (id : ButtonId) : buttonId.read.Exhausts (buttonId.write id) := by
  have hlt := id.toNat_lt
  refine Codec.exhausts_integer fun j hmin hmax => ?_
  have hread : ButtonId.ofInt j = .ok (ButtonId.ofNat j.toNat) := by
    rw [ButtonId.ofInt, if_pos (by omega)]
  rw [hread]
  rfl

theorem exhausts_homeValue (v : Int32) : homeValue.read.Exhausts (homeValue.write v) := by
  have hlow := v.minValue_le_toInt
  have hhigh := v.toInt_le
  have hzero : Int32.minValue.toInt ≤ 0 ∧ 0 ≤ Int32.maxValue.toInt := by decide
  refine Codec.exhausts_integer fun j hmin hmax => ?_
  rw [if_pos ⟨by omega, by omega⟩]
  rfl

theorem exhausts_queueDepth (d : UInt64) : queueDepth.read.Exhausts (queueDepth.write d) := by
  have hlt : (d.toNat : Int) < UInt64.size := by exact_mod_cast d.toNat_lt
  refine Codec.exhausts_integer fun j hmin hmax => ?_
  rw [if_pos ⟨by omega, by omega⟩]
  rfl

/-! ## Records -/

theorem starves_settings (s : Settings) : settings.read.Starves (settings.write s) := by
  rw [settings_eq]
  refine LawfulMember.starves_record (by decide) (fun m hm => ?_) s
  simp only [settingsMembers, List.mem_cons, List.not_mem_nil, or_false] at hm
  rcases hm with rfl | rfl | rfl
  · exact LawfulMember.exhausts_of _ _ _ _ fun m => (Codec.starves_choice _ _ m).exhausts
  · exact LawfulMember.exhausts_of _ _ _ _ fun c => (Codec.starves_choice _ _ c).exhausts
  · exact LawfulMember.exhausts_of _ _ _ _ exhausts_homeValue

theorem starves_widget (w : Widget) : widget.read.Starves (widget.write w) := by
  rw [widget_eq]
  refine LawfulMember.starves_record (by decide) (fun m hm => ?_) w
  simp only [widgetMembers, List.mem_cons, List.not_mem_nil, or_false] at hm
  rcases hm with rfl | rfl
  · exact LawfulMember.exhausts_of _ _ _ _ exhausts_buttonId
  · exact LawfulMember.exhausts_of _ _ _ _ fun s => (Codec.starves_text s).exhausts

theorem starves_widgets (ws : List Widget) : widget.list.read.Starves (widget.list.write ws) :=
  Codec.starves_list lawful_widget (fun w => (starves_widget w).exhausts) ws

theorem starves_panelConfig (c : PanelConfig) : panelConfig.read.Starves (panelConfig.write c) := by
  rw [panelConfig_eq]
  refine LawfulMember.starves_record (by decide) (fun m hm => ?_) c
  simp only [panelConfigMembers, List.mem_cons, List.not_mem_nil, or_false] at hm
  rcases hm with rfl | rfl | rfl
  · exact LawfulMember.exhausts_of _ _ _ _ fun ws => (starves_widgets ws).exhausts
  · exact LawfulMember.exhausts_of _ _ _ _ fun s => (starves_settings s).exhausts
  · exact LawfulMember.exhausts_of _ _ _ _ exhausts_queueDepth

/-- A document is said to be no configuration exactly if reading it fails; an invalid one is blamed otherwise. -/
theorem parse_eq_malformed_iff {text : String} {f : Json.Fault} :
    PanelConfig.parse text = .error (.malformed f) ↔ panelConfig.decode text = .error f := by
  rw [PanelConfig.parse]
  cases panelConfig.decode text with
  | error why => simp
  | ok c => cases hvalid : c.validate <;> simp [hvalid]

/-- What is left of the compact text of a configuration is said to end too early exactly if something is
    missing, and it is read as a configuration, valid or not, only if nothing is. -/
theorem panelConfig_truncated_iff (c : PanelConfig) (text rest : String) (h : text ++ rest = panelConfig.encode c) :
    (PanelConfig.parse text = .error (.malformed .truncated) ↔ rest ≠ "") ∧
    ∀ d, panelConfig.decode text = .ok d ↔ rest = "" ∧ d = c := by
  by_cases hrest : rest = ""
  · have hwhole : panelConfig.decode text = .ok c := by
      rw [hrest, String.append_empty] at h
      rw [h]
      exact lawful_panelConfig.decode_encode c
    rw [parse_eq_malformed_iff, hwhole]
    refine ⟨iff_of_false nofun fun hne => hne hrest, fun d => ?_⟩
    rw [Except.ok.injEq, and_iff_right hrest, eq_comm]
  · have hstub : Stub text.toList (panelConfig.encode c).toList := by
      rw [← h, String.toList_append]
      refine ⟨List.prefix_append _ _, fun heq => hrest ?_⟩
      have hnil : rest.toList = [] := by simpa using heq
      exact String.toList_inj.mp hnil
    have hcut := Codec.decode_stub lawful_panelConfig (starves_panelConfig c) hstub
    rw [parse_eq_malformed_iff, hcut]
    exact ⟨iff_of_true rfl hrest, fun d => iff_of_false nofun fun hd => hrest hd.1⟩

/-- The text is cut inside an escape, behind a minus and inside a number. -/
theorem panelConfig_truncated_in_escape_and_numbers :
    let c : PanelConfig := { buttons := [⟨.ofNat 25, "é\x01"⟩], listener := { homeValue := -40 }, queueDepth := 10 }
    let escape := "\x7b\"buttons\":[\x7b\"id\":25,\"label\":\"é\\u00"
    let minus := "01\"\x7d],\"listener\":\x7b\"mode\":\"home\",\"command\":\"esc\",\"home_value\":-"
    let number := "40\x7d,\"queue_depth\":1"
    let last := "0\x7d"
    escape ++ (minus ++ (number ++ last)) = panelConfig.encode c ∧
      PanelConfig.parse escape = .error (.malformed .truncated) ∧
      PanelConfig.parse (escape ++ minus) = .error (.malformed .truncated) ∧
      PanelConfig.parse (escape ++ minus ++ number) = .error (.malformed .truncated) ∧
      panelConfig.decode (escape ++ minus ++ number ++ last) = .ok c := by
  intro c escape minus number last
  have hwhole : escape ++ (minus ++ (number ++ last)) = panelConfig.encode c := by decide +kernel
  have hminus : (escape ++ minus) ++ (number ++ last) = panelConfig.encode c := by rw [String.append_assoc, hwhole]
  have hnumber : (escape ++ minus ++ number) ++ last = panelConfig.encode c := by rw [String.append_assoc, hminus]
  have hlast : (escape ++ minus ++ number ++ last) ++ "" = panelConfig.encode c := by
    rw [String.append_empty, hnumber]
  exact ⟨hwhole, (panelConfig_truncated_iff c _ _ hwhole).1.mpr (by decide),
    (panelConfig_truncated_iff c _ _ hminus).1.mpr (by decide),
    (panelConfig_truncated_iff c _ _ hnumber).1.mpr (by decide),
    ((panelConfig_truncated_iff c _ _ hlast).2 c).mpr ⟨rfl, rfl⟩⟩

end ButtonPanel.Document
