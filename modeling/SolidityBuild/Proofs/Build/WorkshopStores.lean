import SolidityBuild.Proofs.Build.Stores
import SolidityBuild.Proofs.Cache.Folder
import SolidityBuild.Proofs.Tools.Commands

/-!
The stores of ordinary builds keep what they are given: the one in memory always, the one in a folder in an
ordinary tree of files; in either case what the compiler prints must be spelled without surrogates, as what is
read from octets is.
-/

set_option autoImplicit false

namespace SolidityBuild

namespace Workshop

variable {w w' : Workshop}

theorem result_invoke (choice : StoreChoice) (timeLimit : Nat) (version : Text) (request : Json) (w : Workshop) :
    ((backend choice timeLimit).invoke version request).result w =
      ({ w with bench := ((Compiler.invoke version request timeLimit).result w.bench).1 },
        ((Compiler.invoke version request timeLimit).result w.bench).2) := rfl

/-- An invocation leaves a world in which commands print no surrogates one. -/
theorem printsScalar_invoke {choice : StoreChoice} {timeLimit : Nat} (version : Text) (request : Json)
    (h : w.bench.PrintsScalar) :
    (((backend choice timeLimit).invoke version request).result w).1.bench.PrintsScalar := by
  have hworld := (Compiler.gives_invoke version request timeLimit w.bench).world
  rw [result_invoke, Workbench.PrintsScalar]
  change ∀ n c code stdout stderr,
    ((Compiler.invoke version request timeLimit).run w.bench).1.respond n c = _ → _
  rw [hworld]
  exact h

/-- What the compiler answers is an object that is read from a text. -/
theorem exists_answer {choice : StoreChoice} {timeLimit : Nat} {version : Text} {request report : Json}
    (h : w.bench.PrintsScalar)
    (hinvoke : ((backend choice timeLimit).invoke version request).result w = (w', .ok report)) :
    ∃ answer : Answer, report = answer.json := by
  rw [result_invoke] at hinvoke
  obtain ⟨text, entries, rfl, hparse, hscalar⟩ :=
    (Compiler.gives_invoke version request timeLimit w.bench).given h report (Prod.ext_iff.mp hinvoke).2
  exact ⟨⟨⟨text, entries, hparse⟩, hscalar⟩, rfl⟩

/-- **The store in memory keeps what it is given.** -/
theorem stores_memory (timeLimit : Nat) :
    (backend .memory timeLimit).Stores fun w => w.bench.PrintsScalar :=
  .of_remembers (remembers timeLimit) (fun _ _ h => h) (fun _ _ _ h => printsScalar_invoke _ _ h)
    (fun _ _ _ => rfl) fun _ _ _ _ _ h hinvoke => exists_answer h hinvoke

section Folder

variable (store : FolderStore) (timeLimit : Nat)

theorem result_write_folder (entry : Text) (value : Json) (w : Workshop) :
    ((backend (.folder store) timeLimit).write entry value).result w =
      ({ w with files := (store.write w.files entry (.document value)).1 },
        (store.write w.files entry (.document value)).2) := rfl

/-- **The store in a folder keeps what it is given**, in an ordinary tree of files. -/
theorem stores_folder :
    (backend (.folder store) timeLimit).Stores fun w => w.files.Ordinary ∧ w.bench.PrintsScalar where
  has_still _ _ := rfl
  read_still _ _ := rfl
  write_terms w entry value := by
    rintro ⟨hfiles, hbench⟩ hentry
    exact ⟨store.ordinary_write hfiles hentry.name value, hbench⟩
  write_own w w' entry entries := by
    rintro ⟨hfiles, -⟩ hentry hwell hwrite
    rw [result_write_folder] at hwrite
    obtain ⟨rfl, hok⟩ := Prod.ext_iff.mp hwrite
    exact FolderStore.own_write hfiles hentry.name hwell (Prod.ext rfl hok)
  write_other w entry value entry' := by
    rintro ⟨hfiles, -⟩ hentry hentry' hne hfound
    exact FolderStore.others_write hfiles hentry.name value hentry'.name hne hfound
  invoke_kept w version request := by
    rintro ⟨hfiles, hbench⟩
    exact ⟨⟨hfiles, printsScalar_invoke _ _ hbench⟩, fun _ _ hfound => ⟨hfound, rfl⟩⟩
  invoke_answer w w' version request report := by
    rintro ⟨-, hbench⟩ hinvoke
    exact exists_answer hbench hinvoke

end Folder

end Workshop

end SolidityBuild
