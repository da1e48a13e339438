import Oyster.History
import Oyster.Interleaving

/-! The dialog service: four kinds of dialogs, each with one pending request, in the one modal of
the application. A request is known by its number. -/
namespace Dialogs

inductive Slot where
  | text
  | editor
  | confirm
  | option
deriving DecidableEq

/-- What other features show in the modal. -/
inductive Feature where
  | analytics
  | checkpointModelPicker
  | cloudWorkspace
  | credentials
  | fileExplorer
  | filePicker
  | folderBrowser
  | hublotManager
  | llmboxWorkspace
  | pinnedWidgetViewer
  | routineManager
  | sessionPicker
  | settings
deriving DecidableEq

inductive Content where
  | dialog (slot : Slot)
  | feature (feature : Feature)
deriving DecidableEq

/-- `modalState`. -/
structure Modal where
  isOpen : Bool
  wide : Bool
  title : String
  content : Option Content
deriving DecidableEq

def closedModal : Modal := ⟨false, false, "", none⟩

structure TextPrompt where
  title : String
  placeholder : String
  value : String
  isSecret : Bool

def emptyTextPrompt : TextPrompt := ⟨"", "", "", false⟩

structure EditorPrompt where
  title : String
  placeholder : String
  value : String

def emptyEditorPrompt : EditorPrompt := ⟨"", "", ""⟩

structure ConfirmPrompt where
  title : String
  message : String

def emptyConfirmPrompt : ConfirmPrompt := ⟨"", ""⟩

structure OptionPicker where
  title : String
  options : List String
  searchable : Bool
  query : String
  active : Int
  selected : Int
  disabled : List Bool
  variant : String
  placeholder : String

def emptyDialogOptionPicker : OptionPicker := ⟨"", [], false, "", -1, -1, [], "default", "Filter…"⟩

/-- The stores that the four dialogs show. -/
structure Prompts where
  text : TextPrompt
  editor : EditorPrompt
  confirm : ConfirmPrompt
  option : OptionPicker

/-- A call that opens a dialog. -/
inductive Ask where
  | text (title placeholder prefill : String) (isSecret : Bool)
  | editor (title placeholder prefill : String)
  | confirm (title message : String)
  | option (title : String) (options : List String) (searchable : Bool) (selected : Int) (disabled : List Bool)
      (variant placeholder : String)
deriving DecidableEq

def Ask.slot : Ask → Slot
  | .text .. => .text
  | .editor .. => .editor
  | .confirm .. => .confirm
  | .option .. => .option

def Ask.title : Ask → String
  | .text title .. => title
  | .editor title .. => title
  | .confirm title _ => title
  | .option title .. => title

/-- What the input field of the dialog begins with. -/
def Ask.prefill : Ask → Option String
  | .text _ _ prefill _ => some prefill
  | .editor _ _ prefill => some prefill
  | .confirm .. => none
  | .option .. => none

inductive ExtensionUiRequest where
  | notify
  | confirm (title message : String)
  | select (title : String) (options : List String)
  | input (title placeholder : String) (isSecret : Bool)
  | editor (title prefill : String)
  | setTitle

/-- The dialog that `createExtensionUiController` opens for it. -/
def ExtensionUiRequest.ask : ExtensionUiRequest → Option Ask
  | .notify => none
  | .confirm title message => some (.confirm title message)
  | .select title options => some (.option title options false (-1) [] "default" "Filter…")
  | .input title placeholder isSecret => some (.text title placeholder "" isSecret)
  | .editor title prefill => some (.editor title "" prefill)
  | .setTitle => none

inductive Answer where
  | value (value : Option String)
  | confirmed (answer : Bool)
  | chosen (index : Option Nat)
deriving DecidableEq

def Slot.cancelled : Slot → Answer
  | .text => .value none
  | .editor => .value none
  | .confirm => .confirmed false
  | .option => .chosen none

/-- `entered`: the input field of the request's dialog was set; `submitted`: the answer was given in its dialog. -/
inductive Event where
  | asked (id : Nat) (ask : Ask)
  | entered (id : Nat) (value : String)
  | submitted (id : Nat) (answer : Answer)
  | answered (id : Nat) (answer : Answer)
deriving DecidableEq

structure State where
  modal : Modal
  prompts : Prompts
  /-- `pendingText`, `pendingEditor`, `pendingConfirm`, `pendingOption`. -/
  pending : Slot → Option Nat
  /-- The request whose dialog the slot's store holds. -/
  presented : Slot → Option Nat
  disposed : Bool
  next : Nat
  log : List Event

inductive Action where
  | opens (ask : Ask)
  | extensionUi (request : ExtensionUiRequest)
  | setTextValue (value : String)
  | submitText
  | cancelText
  | setEditorValue (value : String)
  | submitEditor
  | cancelEditor
  | answerConfirm (answer : Bool)
  | setOptionQuery (query : String)
  | setOptionActive (active : Int)
  | chooseOption (index : Nat)
  | cancelOption
  | openModal (title : String) (wide : Bool) (feature : Feature)
  | updateTitle (title : String)
  | closeModal
  | teardown

/-- `optionPicker` as `openOption` sets it. -/
def pickerOf (title : String) (options : List String) (searchable : Bool) (selected : Int) (disabled : List Bool)
    (variant placeholder : String) : OptionPicker :=
  let disabledOptions := (List.range options.length).map fun index => disabled.getD index false
  let selectedIndex := if 0 ≤ selected ∧ selected < options.length then selected else -1
  { title := title
    options := options
    searchable := searchable
    query := ""
    active := if 0 ≤ selectedIndex ∧ disabledOptions.getD selectedIndex.toNat false = true then -1 else selectedIndex
    selected := selectedIndex
    disabled := disabledOptions
    variant := variant
    placeholder := placeholder }

namespace Prompts
variable (prompts : Prompts)

def present : Ask → Prompts
  | .text title placeholder prefill isSecret => { prompts with text := ⟨title, placeholder, prefill, isSecret⟩ }
  | .editor title placeholder prefill => { prompts with editor := ⟨title, placeholder, prefill⟩ }
  | .confirm title message => { prompts with confirm := ⟨title, message⟩ }
  | .option title options searchable selected disabled variant placeholder =>
    { prompts with option := pickerOf title options searchable selected disabled variant placeholder }

def reset : Slot → Prompts
  | .text => { prompts with text := emptyTextPrompt }
  | .editor => { prompts with editor := emptyEditorPrompt }
  | .confirm => { prompts with confirm := emptyConfirmPrompt }
  | .option => { prompts with option := emptyDialogOptionPicker }

end Prompts

namespace State
variable (s : State)

def put (slot : Slot) (id : Option Nat) (prompts : Prompts) : State :=
  { s with
    pending := Function.update s.pending slot id
    presented := Function.update s.presented slot id
    prompts := prompts }

/-- `settleText`, `settleEditor`, `settleConfirm`, `settleOption`. -/
def settle (slot : Slot) (answer : Answer) : State :=
  let settled := s.put slot none (s.prompts.reset slot)
  match s.pending slot with
  | none => settled
  | some id => { settled with modal := closedModal, log := .answered id answer :: s.log }

/-- `pendingText?.(null)` and the like. -/
def displace (slot : Slot) : State :=
  match s.pending slot with
  | none => s
  | some id => { s with log := .answered id slot.cancelled :: s.log }

/-- `openText`, `openEditor`, `openConfirm`, `openOption`. -/
def opens (ask : Ask) : State :=
  if s.disposed then { s with next := s.next + 1, log := .answered s.next ask.slot.cancelled :: .asked s.next ask :: s.log }
  else
    let displaced := s.displace ask.slot
    let placed := displaced.put ask.slot (some s.next) (s.prompts.present ask)
    { placed with
      modal := ⟨true, false, ask.title, some (.dialog ask.slot)⟩
      next := s.next + 1
      log := .asked s.next ask :: displaced.log }

/-- The user gives an answer in the dialog that the slot's store shows. -/
def submits (slot : Slot) (answer : Answer) : State :=
  match s.presented slot with
  | none => s
  | some id => { s with log := .submitted id answer :: s.log }

/-- The user changes the input field of the dialog that the slot's store shows. -/
def enters (slot : Slot) (value : String) : State :=
  match s.presented slot with
  | none => s
  | some id => { s with log := .entered id value :: s.log }

def setTextValue (value : String) : State :=
  if s.disposed then s
  else { s.enters .text value with prompts := { s.prompts with text := { s.prompts.text with value := value } } }

def setEditorValue (value : String) : State :=
  if s.disposed then s
  else { s.enters .editor value with prompts := { s.prompts with editor := { s.prompts.editor with value := value } } }

def submit (slot : Slot) (answer : Answer) : State := (s.submits slot answer).settle slot answer

def chooseOption (index : Nat) : State :=
  if s.prompts.option.disabled.getD index false then s else s.submit .option (.chosen (some index))

def setOption (change : OptionPicker → OptionPicker) : State :=
  if s.disposed then s else { s with prompts := { s.prompts with option := change s.prompts.option } }

def teardown : State :=
  if s.disposed then s
  else
    { (((s.settle .text (.value none)).settle .editor (.value none)).settle .confirm (.confirmed false)).settle .option (.chosen none) with
      disposed := true
      prompts := ⟨emptyTextPrompt, emptyEditorPrompt, emptyConfirmPrompt, emptyDialogOptionPicker⟩ }

end State

def step (s : State) : Action → Option State
  | .opens ask => some (s.opens ask)
  | .extensionUi request => some (match request.ask with | none => s | some ask => s.opens ask)
  | .setTextValue value => some (s.setTextValue value)
  | .submitText => some (s.submit .text (.value (some s.prompts.text.value)))
  | .cancelText => some (s.settle .text (.value none))
  | .setEditorValue value => some (s.setEditorValue value)
  | .submitEditor => some (s.submit .editor (.value (some s.prompts.editor.value)))
  | .cancelEditor => some (s.settle .editor (.value none))
  | .answerConfirm answer => some (s.submit .confirm (.confirmed answer))
  | .setOptionQuery query => some (s.setOption fun picker => { picker with query := query, active := -1 })
  | .setOptionActive active => some (s.setOption fun picker => { picker with active := active })
  | .chooseOption index => some (s.chooseOption index)
  | .cancelOption => some (s.settle .option (.chosen none))
  | .openModal title wide feature => some { s with modal := ⟨true, wide, title, some (.feature feature)⟩ }
  | .updateTitle title => some { s with modal := { s.modal with title := title } }
  | .closeModal => some { s with modal := closedModal }
  | .teardown => some s.teardown

def mounted : State where
  modal := closedModal
  prompts := ⟨emptyTextPrompt, emptyEditorPrompt, emptyConfirmPrompt, emptyDialogOptionPicker⟩
  pending := fun _ => none
  presented := fun _ => none
  disposed := false
  next := 0
  log := []

end Dialogs
