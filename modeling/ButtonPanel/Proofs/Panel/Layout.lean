/-
  ButtonPanel.Proofs.Panel.Layout — the ways to write the document of a configuration, and ways to
  spoil it. A document is written (`PanelConfig.Written`) if every object in it holds some of its
  members, in any order and each at most once, and every button both of its own. It stands for the
  configuration with the defaults where nothing is kept (`PanelConfig.kept`).

  A document is spoilt (`PanelConfig.Spoilt`) by one member too many in any of its objects, which is
  unknown or there already, or by a button that lacks one of its members. It is rejected as a document
  of the wrong shape, whatever the value of that member may be (`panelConfig_layouts`).
-/

import ButtonPanel.Proofs.Json.Selection
import ButtonPanel.Proofs.Panel.Document

namespace ButtonPanel

open Json (Sketch Fills)
open Json.Sketch (Selection Overfull)

/-! ## What a document keeps -/

def Settings.kept (names : List String) (s : Settings) : Settings where
  mode := if "mode" ∈ names then s.mode else (default : Settings).mode
  command := if "command" ∈ names then s.command else (default : Settings).command
  homeValue := if "home_value" ∈ names then s.homeValue else (default : Settings).homeValue

def PanelConfig.kept (names settingNames : List String) (c : PanelConfig) : PanelConfig where
  buttons := if "buttons" ∈ names then c.buttons else (default : PanelConfig).buttons
  listener := if "listener" ∈ names then c.listener.kept settingNames else (default : PanelConfig).listener
  queueDepth := if "queue_depth" ∈ names then c.queueDepth else (default : PanelConfig).queueDepth

/-! ## Objects -/

def Widget.members (w : Widget) : List Sketch.Member :=
  [("id", Sketch.ofTokens [.integer w.id.toNat]), ("label", Sketch.ofTokens [.text w.label])]

def Settings.members (s : Settings) : List Sketch.Member :=
  [("mode", Sketch.ofTokens [.text s.mode.name]), ("command", Sketch.ofTokens [.text s.command.name]),
   ("home_value", Sketch.ofTokens [.integer s.homeValue.toInt])]

def PanelConfig.members (c : PanelConfig) (buttons listener : Sketch) : List Sketch.Member :=
  [("buttons", buttons), ("listener", listener), ("queue_depth", Sketch.ofTokens [.integer c.queueDepth.toNat])]

inductive Widget.Written (w : Widget) : Sketch → Prop
  | object {ms : List Sketch.Member} : ms.Perm w.members → w.Written (.object ms)

/-- A button as it is written with one member too many or too few. -/
inductive Widget.Spoilt (w : Widget) : Sketch → Prop
  | overfull {ms : List Sketch.Member} : Overfull w.members ms → w.Spoilt (.object ms)
  | incomplete {ms : List Sketch.Member} :
      Selection w.members ms → "id" ∉ ms.map Prod.fst ∨ "label" ∉ ms.map Prod.fst → w.Spoilt (.object ms)

inductive Settings.Written (s : Settings) (names : List String) : Sketch → Prop
  | object {ms : List Sketch.Member} : Selection s.members ms → ms.map Prod.fst = names → s.Written names (.object ms)

inductive PanelConfig.Written (c : PanelConfig) (names settingNames : List String) : Sketch → Prop
  | object {buttons : List Sketch} {listener : Sketch} {ms : List Sketch.Member} :
      List.Forall₂ Widget.Written c.buttons buttons → c.listener.Written settingNames listener →
      Selection (c.members (.array buttons) listener) ms → ms.map Prod.fst = names →
      c.Written names settingNames (.object ms)

inductive PanelConfig.Spoilt (c : PanelConfig) : Sketch → Prop
  | overfull {buttons : List Sketch} {listener : Sketch} {settingNames : List String} {ms : List Sketch.Member} :
      List.Forall₂ Widget.Written c.buttons buttons → c.listener.Written settingNames listener →
      Overfull (c.members (.array buttons) listener) ms → c.Spoilt (.object ms)
  | listener {buttons : List Sketch} {listener ms : List Sketch.Member} :
      List.Forall₂ Widget.Written c.buttons buttons → Overfull c.listener.members listener →
      Selection (c.members (.array buttons) (.object listener)) ms → ("listener", Sketch.object listener) ∈ ms →
      c.Spoilt (.object ms)
  | button {before after : List Widget} {w : Widget} {written left : List Sketch} {spoilt listener : Sketch}
      {settingNames : List String} {ms : List Sketch.Member} :
      c.buttons = before ++ w :: after → List.Forall₂ Widget.Written before written → w.Spoilt spoilt →
      List.Forall₂ Widget.Written after left → c.listener.Written settingNames listener →
      Selection (c.members (.array (written ++ spoilt :: left)) listener) ms →
      ("buttons", Sketch.array (written ++ spoilt :: left)) ∈ ms → c.Spoilt (.object ms)

namespace Document

open Json (Entry LawfulMember Reader)

/-! ## Buttons -/

def widgetFields : List (Json.Field WidgetDraft) := (widgetMembers.map (·.toMember)).map (·.toField)

theorem nodup_widgetFields : (widgetFields.map (·.name)).Nodup := by decide

theorem widget_read : widget.read = .record widgetFields {} WidgetDraft.finish := rfl

def widgetEntries (w : Widget) : List (Entry WidgetDraft) := widgetMembers.map (·.entry w)

theorem fields_widgetEntries (w : Widget) : (widgetEntries w).map (·.field) = widgetFields := rfl

/-- What was read of a button: each of its members fills its own part. -/
theorem applyAll_widget (w : Widget) {es : List (Entry WidgetDraft)} (hes : es ⊆ widgetEntries w) :
    Entry.applyAll es {} =
      { id? := if "id" ∈ es.map (·.field.name) then some w.id else none
        label? := if "label" ∈ es.map (·.field.name) then some w.label else none } := by
  have hid := Entry.applyAll_part hes (·.id?) "id" (some w.id)
    (by simp [widgetEntries, widgetMembers, LawfulMember.entry, LawfulMember.of, Json.Member.of]) {}
  have hlabel := Entry.applyAll_part hes (·.label?) "label" (some w.label)
    (by simp [widgetEntries, widgetMembers, LawfulMember.entry, LawfulMember.of, Json.Member.of]) {}
  rw [← hid, ← hlabel]

theorem takes_widget {w : Widget} {k : Sketch} (h : w.Written k) : widget.read.Takes k w := by
  obtain @⟨ms, hperm⟩ := h
  have hnames := hperm.map Prod.fst
  have hid : "id" ∈ ms.map Prod.fst := hnames.mem_iff.mpr List.mem_cons_self
  have hlabel : "label" ∈ ms.map Prod.fst := hnames.mem_iff.mpr (List.mem_cons_of_mem _ List.mem_cons_self)
  have hselection : Selection w.members ms := ⟨hperm.subset, hnames.nodup_iff.mpr (by simp [Widget.members])⟩
  rw [widget_read]
  refine Reader.takes_record nodup_widgetFields (fields_widgetEntries w) hselection fun es hes hsame => ?_
  rw [applyAll_widget w hes, hsame, if_pos hid, if_pos hlabel]
  rfl

theorem turnsDown_widget {w : Widget} {k : Sketch} (h : w.Spoilt k) : widget.read.TurnsDown k .mismatched := by
  rw [widget_read]
  cases h with
  | overfull h => exact Reader.turnsDown_of_overfull nodup_widgetFields (fields_widgetEntries w) h
  | incomplete h hmissing =>
    refine Reader.turnsDown_of_unfinished nodup_widgetFields (fields_widgetEntries w) h fun es hes hsame => ?_
    rw [applyAll_widget w hes, hsame]
    rcases hmissing with hid | hlabel
    · rw [if_neg hid]
      rfl
    · rw [if_neg hlabel]
      split <;> rfl

/-! ## Settings -/

def settingsFields : List (Json.Field Settings) := (settingsMembers.map (·.toMember)).map (·.toField)

theorem nodup_settingsFields : (settingsFields.map (·.name)).Nodup := by decide

theorem settings_read : settings.read = .record settingsFields default some := rfl

def settingsEntries (s : Settings) : List (Entry Settings) := settingsMembers.map (·.entry s)

theorem fields_settingsEntries (s : Settings) : (settingsEntries s).map (·.field) = settingsFields := rfl

theorem applyAll_settings (s : Settings) {es : List (Entry Settings)} (hes : es ⊆ settingsEntries s) :
    Entry.applyAll es default = s.kept (es.map (·.field.name)) := by
  have hmode := Entry.applyAll_part hes (·.mode) "mode" s.mode
    (by simp [settingsEntries, settingsMembers, LawfulMember.entry, LawfulMember.of, Json.Member.of]) default
  have hcommand := Entry.applyAll_part hes (·.command) "command" s.command
    (by simp [settingsEntries, settingsMembers, LawfulMember.entry, LawfulMember.of, Json.Member.of]) default
  have hvalue := Entry.applyAll_part hes (·.homeValue) "home_value" s.homeValue
    (by simp [settingsEntries, settingsMembers, LawfulMember.entry, LawfulMember.of, Json.Member.of]) default
  rw [Settings.kept, ← hmode, ← hcommand, ← hvalue]

theorem takes_settings {s : Settings} {names : List String} {k : Sketch} (h : s.Written names k) :
    settings.read.Takes k (s.kept names) := by
  obtain ⟨hselection, rfl⟩ := h
  rw [settings_read]
  refine Reader.takes_record nodup_settingsFields (fields_settingsEntries s) hselection fun es hes hsame => ?_
  rw [applyAll_settings s hes, hsame]

theorem turnsDown_settings {s : Settings} {ms : List Sketch.Member} (h : Overfull s.members ms) :
    settings.read.TurnsDown (.object ms) .mismatched := by
  rw [settings_read]
  exact Reader.turnsDown_of_overfull nodup_settingsFields (fields_settingsEntries s) h

/-! ## Lists of buttons -/

theorem objects_of_written {bs : List Widget} {ks : List Sketch} (h : List.Forall₂ Widget.Written bs ks) :
    ∀ k ∈ ks, ∃ ms, k = Sketch.object ms := by
  induction h with
  | nil => exact nofun
  | cons hw _ ih =>
    obtain ⟨-⟩ := hw
    exact List.forall_mem_cons.mpr ⟨⟨_, rfl⟩, ih⟩

theorem takes_widgets {bs : List Widget} {ks : List Sketch} (h : List.Forall₂ Widget.Written bs ks) :
    List.Forall₂ widget.read.Takes ks bs := (h.imp fun _ _ => takes_widget).flip

theorem takes_buttons {bs : List Widget} {ks : List Sketch} (h : List.Forall₂ Widget.Written bs ks) :
    widget.list.read.Takes (.array ks) bs := Reader.Takes.list (takes_widgets h) (objects_of_written h)

theorem turnsDown_buttons {before : List Widget} {written : List Sketch} (h : List.Forall₂ Widget.Written before written)
    {w : Widget} {spoilt : Sketch} (hw : w.Spoilt spoilt) (left : List Sketch) :
    widget.list.read.TurnsDown (.array (written ++ spoilt :: left)) .mismatched := by
  have hobject : ∃ ms, spoilt = Sketch.object ms := by cases hw <;> exact ⟨_, rfl⟩
  refine Reader.TurnsDown.list (takes_widgets h) (turnsDown_widget hw) ?_ left
  exact List.forall_mem_append.mpr ⟨objects_of_written h, List.forall_mem_singleton.mpr hobject⟩

/-! ## Configurations -/

def buttonsField : Json.Field PanelConfig := .of "buttons" widget.list fun c bs => { c with buttons := bs }

def listenerField : Json.Field PanelConfig := .of "listener" settings fun c s => { c with listener := s }

def queueDepthField : Json.Field PanelConfig := .of "queue_depth" queueDepth fun c d => { c with queueDepth := d }

def panelConfigFields : List (Json.Field PanelConfig) := [buttonsField, listenerField, queueDepthField]

theorem nodup_panelConfigFields : (panelConfigFields.map (·.name)).Nodup := by decide

theorem panelConfig_read : panelConfig.read = .record panelConfigFields default some := rfl

def buttonsEntry {ts : List Json.Token} {bs : List Widget} (h : widget.list.read.Reads ts bs) : Entry PanelConfig :=
  .of "buttons" (fun c bs => { c with buttons := bs }) h

def listenerEntry {ts : List Json.Token} {s : Settings} (h : settings.read.Reads ts s) : Entry PanelConfig :=
  .of "listener" (fun c s => { c with listener := s }) h

def queueDepthEntry (d : UInt64) : Entry PanelConfig :=
  .of "queue_depth" (fun c d => { c with queueDepth := d }) (lawful_queueDepth.reads d)

theorem fields_entries {bts lts : List Json.Token} {bs : List Widget} {s : Settings}
    (hb : widget.list.read.Reads bts bs) (hs : settings.read.Reads lts s) (d : UInt64) :
    [buttonsEntry hb, listenerEntry hs, queueDepthEntry d].map (·.field) = panelConfigFields := rfl

theorem applyAll_entries {bts lts : List Json.Token} (c : PanelConfig) {settingNames : List String}
    (hb : widget.list.read.Reads bts c.buttons) (hs : settings.read.Reads lts (c.listener.kept settingNames))
    {es : List (Entry PanelConfig)} (hes : es ⊆ [buttonsEntry hb, listenerEntry hs, queueDepthEntry c.queueDepth]) :
    Entry.applyAll es default = c.kept (es.map (·.field.name)) settingNames := by
  have hbuttons := Entry.applyAll_part hes (·.buttons) "buttons" c.buttons
    (by simp [buttonsEntry, listenerEntry, queueDepthEntry, Entry.of, Json.Field.of]) default
  have hlistener := Entry.applyAll_part hes (·.listener) "listener" (c.listener.kept settingNames)
    (by simp [buttonsEntry, listenerEntry, queueDepthEntry, Entry.of, Json.Field.of]) default
  have hdepth := Entry.applyAll_part hes (·.queueDepth) "queue_depth" c.queueDepth
    (by simp [buttonsEntry, listenerEntry, queueDepthEntry, Entry.of, Json.Field.of]) default
  rw [PanelConfig.kept, ← hbuttons, ← hlistener, ← hdepth]

theorem takes_panelConfig {c : PanelConfig} {names settingNames : List String} {k : Sketch}
    (h : c.Written names settingNames k) : panelConfig.read.Takes k (c.kept names settingNames) := by
  obtain ⟨hbuttons, hlistener, hselection, rfl⟩ := h
  obtain ⟨bts, hbts, hb⟩ := takes_buttons hbuttons
  obtain ⟨lts, rfl, hs⟩ := takes_settings hlistener
  rw [hbts] at hselection
  rw [panelConfig_read]
  refine Reader.takes_record nodup_panelConfigFields (fields_entries hb hs c.queueDepth) hselection fun es hes hsame => ?_
  rw [applyAll_entries c hb hs hes, hsame]

theorem turnsDown_panelConfig {c : PanelConfig} {k : Sketch} (h : c.Spoilt k) :
    panelConfig.read.TurnsDown k .mismatched := by
  rw [panelConfig_read]
  cases h with
  | overfull hbuttons hlistener hoverfull =>
    obtain ⟨bts, hbts, hb⟩ := takes_buttons hbuttons
    obtain ⟨lts, rfl, hs⟩ := takes_settings hlistener
    rw [hbts] at hoverfull
    exact Reader.turnsDown_of_overfull nodup_panelConfigFields (fields_entries hb hs c.queueDepth) hoverfull
  | listener hbuttons hlistener hselection hmem =>
    obtain ⟨bts, hbts, hb⟩ := takes_buttons hbuttons
    rw [hbts] at hselection
    have hfield : listenerField ∈ panelConfigFields := by simp [panelConfigFields]
    have hothers : ∀ e ∈ [buttonsEntry hb, queueDepthEntry c.queueDepth], e.field ∈ panelConfigFields := by
      simp [panelConfigFields, buttonsEntry, queueDepthEntry, buttonsField, queueDepthField, Entry.of]
    exact Reader.turnsDown_of_value nodup_panelConfigFields hfield hothers (turnsDown_settings hlistener)
      (hselection.mono (List.Perm.swap _ _ _).subset) hmem
  | button _ hwritten hspoilt _ hlistener hselection hmem =>
    obtain ⟨lts, rfl, hs⟩ := takes_settings hlistener
    have hfield : buttonsField ∈ panelConfigFields := by simp [panelConfigFields]
    have hothers : ∀ e ∈ [listenerEntry hs, queueDepthEntry c.queueDepth], e.field ∈ panelConfigFields := by
      simp [panelConfigFields, listenerEntry, queueDepthEntry, listenerField, queueDepthField, Entry.of]
    exact Reader.turnsDown_of_value nodup_panelConfigFields hfield hothers (turnsDown_buttons hwritten hspoilt _)
      hselection hmem

/-- A document that keeps some members of a configuration is read as the configuration with the
    defaults for the others, whatever their order, whatever blanks there are and however its texts are
    spelt. A document with one member too many or with a button that lacks a member is of the wrong
    shape, whatever the value of that member may be. -/
theorem panelConfig_layouts (c : PanelConfig) :
    (∀ names settingNames k text, c.Written names settingNames k → Fills text.toList k →
      panelConfig.decode text = .ok (c.kept names settingNames)) ∧
    ∀ k text, c.Spoilt k → Fills text.toList k →
      panelConfig.decode text = .error .mismatched ∧ PanelConfig.parse text = .error (.malformed .mismatched) := by
  refine ⟨fun names settingNames k text hk htext => (takes_panelConfig hk).parse htext, fun k text hk htext => ?_⟩
  have hdecode : panelConfig.decode text = .error .mismatched := (turnsDown_panelConfig hk).parse htext
  exact ⟨hdecode, by rw [PanelConfig.parse, hdecode]⟩

theorem panelConfig_layouts_with_one_button :
    panelConfig.decode
        "\x7b \"listener\":\x7b\"mode\":\"command\"\x7d,\n\"buttons\":[\x7b\"label\":\"A\",\"id\":3\x7d]\x7d" =
      .ok { buttons := [⟨.ofNat 3, "A"⟩], listener := { mode := .command } } ∧
    PanelConfig.parse "\x7b\"buttons\":[\x7b\"label\":\"A\",\"colour\":[1.5],\"id\":3\x7d]\x7d" =
      .error (.malformed .mismatched) := by
  let w : Widget := ⟨.ofNat 3, "A"⟩
  let c : PanelConfig := { buttons := [w], listener := { mode := .command, homeValue := 7 }, queueDepth := 5 }
  let label : Sketch.Member := ("label", Sketch.ofTokens [.text "A"])
  let id : Sketch.Member := ("id", Sketch.ofTokens [.integer 3])
  let mode : Sketch.Member := ("mode", Sketch.ofTokens [.text "command"])
  have hid : ∀ {rest : List Char} {k : Sketch}, Fills ('}' :: rest) k →
      Fills ((Json.Token.integer 3).spelling ++ '}' :: rest) (some (.integer 3) :: k) :=
    .token (.word _) (by simp only [Json.Token.Fits]; decide) fun _ => by rintro c ⟨⟩; decide
  have hlistener : c.listener.Written ["mode"] (.object [mode]) :=
    .object ⟨List.cons_subset.mpr ⟨List.mem_cons_self, List.nil_subset _⟩, by decide⟩ rfl
  constructor
  · have hbutton : w.Written (.object [label, id]) := .object (List.Perm.swap id label [])
    have hwritten : c.Written ["listener", "buttons"] ["mode"]
        (.object [("listener", .object [mode]), ("buttons", .array [.object [label, id]])]) := by
      refine .object (.cons hbutton .nil) hlistener ⟨?_, ?_⟩ rfl <;> simp [PanelConfig.members]
    refine (panelConfig_layouts c).1 _ _ _ _ hwritten ?_
    refine .tokens [.openBrace] (by decide) (.blank rfl ?_)
    refine .tokens [.text "listener", .colon, .openBrace, .text "mode", .colon, .text "command", .closeBrace, .comma]
      (by decide) (.blank rfl ?_)
    refine .tokens [.text "buttons", .colon, .openBracket, .openBrace, .text "label", .colon, .text "A", .comma,
      .text "id", .colon] (by decide) (hid ?_)
    exact .tokens [.closeBrace, .closeBracket, .closeBrace] (by decide) .nil
  · have hspoilt : w.Spoilt (.object [label, ("colour", [none]), id]) := by
      refine .overfull ⟨[label], ("colour", [none]), [id], rfl, ⟨(List.Perm.swap id label []).subset, ?_⟩, .inl ?_⟩
      · simp [label, id]
      · simp [Widget.members]
    have hconfig : c.Spoilt (.object [("buttons", .array [.object [label, ("colour", [none]), id]])]) := by
      have hnone : List.Forall₂ Widget.Written [] [] := .nil
      have hbuttons : c.buttons = [] ++ w :: [] := rfl
      refine .button hbuttons hnone hspoilt hnone hlistener ⟨?_, ?_⟩ ?_ <;> simp [PanelConfig.members]
    refine ((panelConfig_layouts c).2 _ _ hconfig ?_).2
    refine .tokens [.openBrace, .text "buttons", .colon, .openBracket, .openBrace, .text "label", .colon, .text "A", .comma,
      .text "colour", .colon] (by decide) (.gap ['[', '1', '.', '5', ']'] ?_)
    refine .tokens [.comma, .text "id", .colon] (by decide) (hid ?_)
    exact .tokens [.closeBrace, .closeBracket, .closeBrace] (by decide) .nil

end Document

end ButtonPanel
