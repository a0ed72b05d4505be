import Overlay.Program.Request

/-!
Programs as trees: a program is done, or it reads or replaces the state it works on, or it asks the
world for something and goes on with the answer.

Every program is finite. What runs for ever is a job, which is one program after the other.
-/

set_option autoImplicit false

namespace Overlay

/-- A program over a state. -/
inductive Program (σ α : Type) : Type
  | done (value : α)
  | get (next : σ → Program σ α)
  | put (state : σ) (next : Program σ α)
  | ask (request : Request) (next : request.Reply → Program σ α)

namespace Program

variable {σ α β : Type}

/-- One program after the other. -/
def bind : Program σ α → (α → Program σ β) → Program σ β
  | .done value, rest => rest value
  | .get next, rest => .get fun state => (next state).bind rest
  | .put state next, rest => .put state (next.bind rest)
  | .ask request next, rest => .ask request fun reply => (next reply).bind rest

instance : Monad (Program σ) where
  pure := .done
  bind := bind

instance : MonadStateOf σ (Program σ) where
  get := .get .done
  set state := .put state (.done ())
  modifyGet change := .get fun state => let (value, state) := change state; .put state (.done value)

instance [Inhabited α] : Inhabited (Program σ α) := ⟨.done default⟩

/-- Asks the world for something. -/
def request (request : Request) : Program σ request.Reply := .ask request .done

/-- The moment it is. -/
def now : Program σ Instant := request .moment

def connect (address : SocketAddress) (tag : Wire.ServiceTag) (patience : Duration)
    (deadline : Instant) : Program σ Connecting :=
  request (.connect address tag patience deadline)

def read (stream : StreamId) (count : Nat) (deadline : Option Instant) : Program σ Reading :=
  request (.read stream count deadline)

def write (stream : StreamId) (bytes : Wire.Bytes) (deadline : Option Instant) :
    Program σ Writing := request (.write stream bytes deadline)

def finish (stream : StreamId) : Program σ Unit := request (.finish stream)

def report (event : Event) : Program σ Unit := request (.report event)

def raise (signal : Signal) : Program σ Unit := request (.raise signal)

def launch (job : Job) : Program σ WorkerId := request (.launch job)

def close (stream : StreamId) : Program σ Unit := request (.close stream)

def pause (span : Duration) (signals : List Signal) : Program σ Pausing :=
  request (.pause span signals)

def join (workers : List WorkerId) : Program σ Unit := request (.join workers)

@[simp] theorem bind_done (program : Program σ α) : program.bind .done = program := by
  induction program with
  | done value => rfl
  | get next step => exact congrArg Program.get (funext step)
  | put state next step => exact congrArg (Program.put state) step
  | ask request next step => exact congrArg (Program.ask request) (funext step)

theorem bind_bind {γ : Type} (program : Program σ α) (second : α → Program σ β)
    (third : β → Program σ γ) :
    (program.bind second).bind third = program.bind fun value => (second value).bind third := by
  induction program with
  | done value => rfl
  | get next step => exact congrArg Program.get (funext step)
  | put state next step => exact congrArg (Program.put state) step
  | ask request next step => exact congrArg (Program.ask request) (funext step)

instance : LawfulMonad (Program σ) :=
  LawfulMonad.mk' (Program σ) bind_done (fun _ _ => rfl) bind_bind

end Program

end Overlay
