import Mathlib.Data.List.TakeWhile
import Reckoner.Proofs.Text.Integer
import Reckoner.Proofs.Value.Storable
import Reckoner.Window.Settings

/-!
# What widgets ask for

A checkbox asks for the value that it shows, and a field for the integer typed in it; a blank field asks for
nothing. A field is refused if something else is typed. Taking widgets over puts what they ask for into the
places of the settings, up to the first field that is refused.

Main results: `Dialog.takeOverAll_settings`, `Dialog.takeOverAll_none`, `Dialog.get?_plan`.
-/

namespace Reckoner

/-- Truth values and integers can be changed in the dialog. -/
def Value.isEditable : Value → Bool
  | bool _ | integer _ => true
  | _ => false

namespace Window

namespace Widget

/-- The value that a widget asks for, if it asks for one. -/
def asked? : Widget → Option Value
  | checkbox _ checked => some (.bool checked)
  | field _ _ text =>
    if Text.trim text = "" then none else (Text.readInteger (Text.trim text)).toOption.map .integer

/-- What a widget asks for can be stored. -/
theorem storable_of_asked {widget : Widget} {value : Value} (asks : widget.asked? = some value) :
    Value.Storable value := by
  cases widget with
  | checkbox label checked =>
    cases asks
    exact .bool checked
  | field label placeholder text =>
    rw [asked?] at asks
    split at asks
    next => cases asks
    next =>
      cases read : Text.readInteger (Text.trim text) with
      | error fault =>
        rw [read] at asks
        cases asks
      | ok n =>
        rw [read] at asks
        cases asks
        exact .integer (Text.readInteger_short read)

/-- Is the widget a field that is not blank and holds no integer, or too few decimal places? -/
def isRefused (key : CodeText) : Widget → Bool
  | checkbox _ _ => false
  | field _ _ text =>
    Text.trim text ≠ "" &&
      match Text.readInteger (Text.trim text) with
      | .ok n => key = Settings.placesKey && n < Dialog.leastPlaces
      | .error _ => true

end Widget

namespace Dialog

variable {settings : Settings} {widgets : Entries CodeText Widget} {key : CodeText} {widget : Widget}

/-! ### Taking widgets over -/

/-- What the widgets ask for under a key. -/
def asked? (widgets : Entries CodeText Widget) (key : CodeText) : Option Value := (widgets.get? key).bind Widget.asked?

theorem storable_of_asked? {value : Value} (asks : asked? widgets key = some value) : Value.Storable value := by
  obtain ⟨widget, -, asks⟩ := Option.bind_eq_some_iff.mp asks
  exact Widget.storable_of_asked asks

/-- The widgets in front of the first one that is refused. -/
def accepted (widgets : Entries CodeText Widget) : Entries CodeText Widget :=
  widgets.takeWhile fun (key, widget) => !widget.isRefused key

theorem takeOver_of_accepted (taken : widget.isRefused key = false) (settings : Settings) :
    takeOver settings key widget = .ok ((widget.asked?.map (settings.put key)).getD settings) := by
  cases widget with
  | checkbox label checked => rfl
  | field label placeholder text =>
    unfold takeOver Widget.asked?
    unfold Widget.isRefused at taken
    by_cases blank : Text.trim text = ""
    · simp [blank]
    · cases read : Text.readInteger (Text.trim text) with
      | error fault => simp [blank, read] at taken
      | ok n =>
        have acceptable : ¬ (key = Settings.placesKey ∧ n < leastPlaces) := by
          simpa [blank, read] using taken
        simp only [if_neg blank, readField, read, if_neg acceptable]
        rfl

theorem takeOver_of_refused (refused : widget.isRefused key = true) (settings : Settings) :
    ∃ message, takeOver settings key widget = .error message := by
  cases widget with
  | checkbox label checked => cases refused
  | field label placeholder text =>
    unfold takeOver
    unfold Widget.isRefused at refused
    by_cases blank : Text.trim text = ""
    · simp [blank] at refused
    · simp only [if_neg blank, readField]
      cases read : Text.readInteger (Text.trim text) with
      | error fault => exact ⟨_, rfl⟩
      | ok n =>
        have unacceptable : key = Settings.placesKey ∧ n < leastPlaces := by
          simpa [blank, read] using refused
        simp only [if_pos unacceptable]
        exact ⟨_, rfl⟩

/-- One widget that is taken over sets its own key. -/
theorem put_asked (distinct : settings.Distinct) (known : key ∈ settings.map (·.1)) :
    (widget.asked?.map (settings.put key)).getD settings = settings.replace (asked? [(key, widget)]) := by
  have asks : ∀ other, asked? [(key, widget)] other = if other = key then widget.asked? else none := by
    intro other
    unfold asked?
    rw [Entries.get?_cons]
    by_cases same : other = key
    · simp [same]
    · simp [same, Ne.symm same, Entries.get?]
  rw [funext asks]
  cases widget.asked? with
  | none => simp [Entries.replace_none]
  | some value => exact Entries.put_eq_replace distinct known value

/-- What the widgets ask for takes the place of what is set, up to the first widget that is refused. -/
theorem takeOverAll_settings (distinct : settings.Distinct) (distinctWidgets : widgets.Distinct)
    (known : ∀ key ∈ widgets.map (·.1), key ∈ settings.map (·.1)) :
    (takeOverAll settings widgets).1 = settings.replace (asked? (accepted widgets)) := by
  induction widgets generalizing settings with
  | nil => exact (Entries.replace_none settings).symm
  | cons entry rest ih =>
    obtain ⟨key, widget⟩ := entry
    obtain ⟨absent, distinctRest⟩ := List.nodup_cons.mp distinctWidgets
    rw [takeOverAll]
    cases refused : widget.isRefused key with
    | true =>
      obtain ⟨message, stopped⟩ := takeOver_of_refused refused settings
      have none : accepted ((key, widget) :: rest) = [] := by simp [accepted, refused]
      rw [stopped, none]
      exact (Entries.replace_none settings).symm
    | false =>
      have first : accepted ((key, widget) :: rest) = (key, widget) :: accepted rest := by
        simp [accepted, refused]
      have here : key ∈ settings.map (·.1) := known key List.mem_cons_self
      rw [takeOver_of_accepted refused, first, put_asked distinct here]
      simp only
      rw [ih (distinct.replace _) distinctRest, Entries.replace_replace]
      · -- No later widget has this key, so the order does not matter.
        congr 1
        funext other
        unfold asked?
        rw [Entries.get?_cons, Entries.get?_cons]
        by_cases same : key = other
        · subst same
          have gone : key ∉ (accepted rest).map (·.1) :=
            fun member => absent (((List.takeWhile_sublist _).map _).subset member)
          rw [Entries.get?_eq_none gone, if_pos rfl, if_pos rfl]
          rfl
        · rw [if_neg same, if_neg same]
          cases (Entries.get? (accepted rest) other).bind Widget.asked? <;> rfl
      · rw [Entries.keys_replace]
        exact fun other member => known other (List.mem_cons_of_mem key member)

/-- All widgets are taken over if none of them is refused. -/
theorem takeOverAll_none (settings : Settings) :
    (takeOverAll settings widgets).2 = none ↔ ∀ entry ∈ widgets, entry.2.isRefused entry.1 = false := by
  induction widgets generalizing settings with
  | nil => simp [takeOverAll]
  | cons entry rest ih =>
    obtain ⟨key, widget⟩ := entry
    rw [takeOverAll, List.forall_mem_cons]
    cases refused : widget.isRefused key with
    | true =>
      obtain ⟨message, stopped⟩ := takeOver_of_refused refused settings
      simp [stopped]
    | false => simp [takeOver_of_accepted refused, ih]

theorem accepted_of_none_refused (taken : ∀ entry ∈ widgets, entry.2.isRefused entry.1 = false) :
    accepted widgets = widgets :=
  List.takeWhile_eq_self_iff.mpr fun entry member => by simp [taken entry member]

/-! ### The widgets of settings -/

/-- A value and its widget: a checkbox for a truth value, a field for an integer, and none for other values. -/
inductive Suits : Value → Option Widget → Prop
  | checkbox (label : Value) (set checked : Bool) : Suits (.bool set) (some (.checkbox label checked))
  | field (label : CodeText) (placeholder text : String) (set : Int) :
    Suits (.integer set) (some (.field label placeholder text))
  | none {value : Value} (fixed : value.isEditable = false) : Suits value none

/-- A value and its widget as it is made: the checkbox shows the value, and the field is blank. -/
inductive Fresh : Value → Option Widget → Prop
  | checkbox (label : Value) (set : Bool) : Fresh (.bool set) (some (.checkbox label set))
  | field (label : CodeText) (set : Int) : Fresh (.integer set) (some (.field label (toString set) ""))
  | none {value : Value} (fixed : value.isEditable = false) : Fresh value none

theorem Fresh.suits {value : Value} {widget : Option Widget} (fresh : Fresh value widget) : Suits value widget := by
  cases fresh with
  | checkbox label set => exact .checkbox label set set
  | field label set => exact .field label _ _ set
  | none fixed => exact .none fixed

/-- A widget as it is made asks for nothing but the value that is set. -/
theorem Fresh.asked {value : Value} {widget : Option Widget} (fresh : Fresh value widget) :
    (widget.bind Widget.asked?).getD value = value := by
  cases fresh <;> rfl

theorem Fresh.not_refused {value : Value} (fresh : Fresh value (some widget)) (key : CodeText) :
    widget.isRefused key = false := by
  cases fresh <;> rfl

variable {descriptions : Settings}

/-- What a dialog that could be built has in front of the widgets of the later settings. -/
theorem plan_cons {value : Value} {rest : Settings}
    (built : (plan descriptions ((key, value) :: rest)).badLabel = none) :
    (plan descriptions rest).badLabel = none ∧
      ∃ widget, Fresh value widget ∧
        (plan descriptions ((key, value) :: rest)).widgets =
          (widget.map (key, ·)).toList ++ (plan descriptions rest).widgets := by
  cases value with
  | bool set => exact ⟨built, some (.checkbox _ set), .checkbox _ set, rfl⟩
  | integer set =>
    rw [plan] at built ⊢
    cases named : description descriptions key with
    | text label =>
      rw [named] at built
      exact ⟨built, some (.field _ _ ""), .field _ set, rfl⟩
    | _ =>
      rw [named] at built
      cases built
  | _ => exact ⟨built, none, .none rfl, rfl⟩

/-- The widgets stand in the order of the settings. -/
theorem keys_plan (built : (plan descriptions settings).badLabel = none) :
    ((plan descriptions settings).widgets.map (·.1)).Sublist (settings.map (·.1)) := by
  induction settings with
  | nil => exact List.nil_sublist _
  | cons entry rest ih =>
    obtain ⟨builtRest, widget, -, widgets⟩ := plan_cons built
    rw [widgets, List.map_append, List.map_cons]
    cases widget with
    | none => exact (ih builtRest).cons entry.1
    | some widget => exact (ih builtRest).cons_cons entry.1

/-- In a dialog that could be built, every setting has the widget that is made for it. -/
theorem get?_plan (built : (plan descriptions settings).badLabel = none) (distinct : settings.Distinct) :
    ∀ entry ∈ settings, Fresh entry.2 ((plan descriptions settings).widgets.get? entry.1) := by
  induction settings with
  | nil => exact nofun
  | cons entry rest ih =>
    obtain ⟨absent, distinctRest⟩ := List.nodup_cons.mp distinct
    obtain ⟨builtRest, widget, fresh, widgets⟩ := plan_cons built
    have gone : entry.1 ∉ (plan descriptions rest).widgets.map (·.1) :=
      fun member => absent ((keys_plan builtRest).subset member)
    rw [List.forall_mem_cons, widgets]
    constructor
    · cases widget with
      | none => simpa [Entries.get?_eq_none gone] using fresh
      | some widget => simpa [Entries.get?_cons] using fresh
    · intro other member
      have found := ih builtRest distinctRest other member
      cases widget with
      | none => exact found
      | some widget =>
        show Fresh other.2 (Entries.get? ((entry.1, widget) :: _) other.1)
        rwa [Entries.get?_cons, if_neg (Ne.symm (Entries.ne_of_absent absent member))]

/-- Where all descriptions are texts, the dialog can be built. -/
theorem built_of_texts (texts : ∀ entry ∈ descriptions, ∃ label, entry.2 = .text label) (settings : Settings) :
    (plan descriptions settings).badLabel = none := by
  induction settings with
  | nil => rfl
  | cons entry rest ih =>
    obtain ⟨key, value⟩ := entry
    obtain ⟨label, named⟩ : ∃ label, description descriptions key = .text label := by
      unfold description
      cases found : descriptions.get? key with
      | none => exact ⟨key, rfl⟩
      | some value =>
        obtain ⟨label, same⟩ := texts _ (Entries.mem_of_get? found)
        exact ⟨label, same⟩
    cases value with
    | integer set =>
      rw [plan, named]
      exact ih
    | _ => exact ih

/-- Widgets that were just made ask for what is set. -/
theorem replace_plan (built : (plan descriptions settings).badLabel = none) (distinct : settings.Distinct) :
    settings.replace (asked? (plan descriptions settings).widgets) = settings :=
  Entries.replace_eq_self fun entry member => (get?_plan built distinct entry member).asked

theorem plan_not_refused (built : (plan descriptions settings).badLabel = none) (distinct : settings.Distinct) :
    ∀ entry ∈ (plan descriptions settings).widgets, entry.2.isRefused entry.1 = false := by
  intro entry member
  have sublist := keys_plan built
  obtain ⟨set, here, same⟩ := List.mem_map.mp (sublist.subset (List.mem_map_of_mem member))
  have fresh := get?_plan built distinct set here
  rw [same, Entries.get?_of_mem (distinct.sublist sublist) member] at fresh
  exact fresh.not_refused entry.1

/-! ### Edits -/

/-- The dialog after an action on a widget. The buttons change no widget. -/
def edit (dialog : Dialog) : DialogAction → Dialog
  | .check key on => dialog.check key on
  | .fill key text => dialog.fill key text
  | .ok | .cancel => dialog

/-- The widgets after an action, whatever the settings are. -/
def edited (widgets : Entries CodeText Widget) (action : DialogAction) : Entries CodeText Widget :=
  (edit ⟨[], widgets⟩ action).widgets

/-- The widgets after all actions. -/
def standing (widgets : Entries CodeText Widget) (actions : List DialogAction) : Entries CodeText Widget :=
  actions.foldl edited widgets

/-- An edit changes the widgets and no setting. -/
theorem edit_eq (dialog : Dialog) (action : DialogAction) :
    dialog.edit action = ⟨dialog.settings, edited dialog.widgets action⟩ := by
  cases action with
  | check key on =>
    unfold edited edit check
    dsimp only
    split <;> rfl
  | fill key text =>
    unfold edited edit fill
    dsimp only
    split <;> rfl
  | ok => rfl
  | cancel => rfl

/-- An edit leaves the widgets alone, or it puts one of the same kind in the place of another. -/
theorem edited_cases (widgets : Entries CodeText Widget) (action : DialogAction) :
    edited widgets action = widgets ∨
      ∃ key old new, widgets.get? key = some old ∧ edited widgets action = widgets.put key new ∧
        ∀ value, Suits value (some old) → Suits value (some new) := by
  cases action with
  | check key on =>
    unfold edited edit check
    dsimp only
    split
    next label checked found =>
      refine .inr ⟨key, _, _, found, rfl, fun value suits => ?_⟩
      cases suits with
      | checkbox _ set _ => exact .checkbox label set on
    next => exact .inl rfl
  | fill key text =>
    unfold edited edit fill
    dsimp only
    split
    next label placeholder typed found =>
      refine .inr ⟨key, _, _, found, rfl, fun value suits => ?_⟩
      cases suits with
      | field _ _ _ set => exact .field label placeholder text set
    next => exact .inl rfl
  | ok => exact .inl rfl
  | cancel => exact .inl rfl

theorem keys_edited (widgets : Entries CodeText Widget) (action : DialogAction) :
    (edited widgets action).map (·.1) = widgets.map (·.1) := by
  rcases edited_cases widgets action with same | ⟨key, old, new, found, changed, -⟩
  · rw [same]
  · rw [changed, Entries.keys_put, if_pos (List.mem_map_of_mem (Entries.mem_of_get? found))]

theorem Suits.edited {value : Value} (suits : Suits value (widgets.get? key)) (action : DialogAction) :
    Suits value ((edited widgets action).get? key) := by
  rcases edited_cases widgets action with same | ⟨other, old, new, found, changed, kept⟩
  · rwa [same]
  · rw [changed]
    by_cases same : key = other
    · subst same
      rw [found] at suits
      rw [Entries.get?_put_self]
      exact kept value suits
    · rwa [Entries.get?_put_other widgets new same]

/-- After any edits, every setting has a widget of its kind. -/
theorem Suits.standing {value : Value} (suits : Suits value (widgets.get? key)) (actions : List DialogAction) :
    Suits value ((standing widgets actions).get? key) := by
  induction actions generalizing widgets with
  | nil => exact suits
  | cons action rest ih => exact ih (suits.edited action)

theorem keys_standing (widgets : Entries CodeText Widget) (actions : List DialogAction) :
    (standing widgets actions).map (·.1) = widgets.map (·.1) := by
  induction actions generalizing widgets with
  | nil => rfl
  | cons action rest ih => exact (ih (edited widgets action)).trans (keys_edited widgets action)

end Dialog

end Window

end Reckoner
