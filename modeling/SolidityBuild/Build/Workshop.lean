import SolidityBuild.Build.Program
import SolidityBuild.Cache.Store
import SolidityBuild.Tools.Framework

/-!
The backend of ordinary builds. Its state is a tree of files, a store in memory and the programs at
hand; requests for cache entries go to the store in memory or to one in a folder, the compiler and the
frameworks are the programs of that name.
-/

set_option autoImplicit false

namespace SolidityBuild

/-- What builds work on. -/
structure Workshop where
  files : Files
  memory : MemoryStore := []
  bench : Workbench

/-- Where a build keeps its documents. -/
inductive StoreChoice where
  | memory
  | folder (store : FolderStore)

namespace StoreChoice

/-- Whether an entry is there. -/
def has (choice : StoreChoice) (entry : Text) : Task Workshop Bool :=
  match choice with
  | memory => .ask fun w => w.memory.has entry
  | folder store => .look fun w => store.has w.files entry

/-- The value of an entry. -/
def read (choice : StoreChoice) (entry : Text) : Task Workshop Json :=
  match choice with
  | memory => .look fun w => w.memory.read entry
  | folder store => .look fun w => store.read w.files entry

/-- Writes an entry. -/
def write (choice : StoreChoice) (entry : Text) (value : Storable) : Task Workshop Unit :=
  match choice with
  | memory =>
    .attempt fun w =>
      match w.memory.write entry value with
      | .ok stored => ({ w with memory := stored }, .ok ())
      | .error failure => (w, .error failure)
  | folder store =>
    .attempt fun w =>
      let (changed, outcome) := store.write w.files entry value
      ({ w with files := changed }, outcome)

end StoreChoice

namespace Workshop

/-- A computation on the programs at hand. -/
def onBench {α : Type} (task : Task Workbench α) : Task Workshop α :=
  task.on Workshop.bench fun w bench => { w with bench }

/-- Runs the framework of a kind of project. -/
def runFramework (kind : ProjectKind) (folder : Path) (timeLimit : Nat) :
    Task Workshop FrameworkOutcome :=
  match Framework.ofKind? kind with
  | none => .fail (.providerMissing kind)
  | some framework => do
    let files ← Task.ask Workshop.files
    onBench (framework.build files folder timeLimit)

/-- The backend with a store of the given choice and a time limit for every command. -/
def backend (store : StoreChoice) (timeLimit : Nat) : Backend Workshop where
  has := store.has
  read := store.read
  write := fun entry value => store.write entry (.document value)
  invoke := fun version request => onBench (Compiler.invoke version request timeLimit)
  framework := fun kind folder => runFramework kind folder timeLimit

end Workshop

end SolidityBuild
