import SolidityBuild.Proofs.CommandLine.Building
import SolidityBuild.Proofs.Files.NullPaths
import SolidityBuild.Proofs.Yaml.DocumentFaults

/-!
Files of settings that are broken. A fault is foreseen, and then its message names the file, unless the file is not
text, or its text has a value that is none: an escape beyond the last code point, a version of too many digits, or a
scalar that does not spell a value of the kind that its tag asks for. A command that builds a project answers the
former with code one; the latter end it without a code.
-/

set_option autoImplicit false

namespace SolidityBuild

/-! ## Paths in messages -/

/-- A text that a message quotes as it is. -/
structure Text.Plain (t : Text) : Prop where
  shown : ∀ c ∈ t, c.isPrintable = true ∧ c ≠ '\\'
  quotable : singleQuote ∉ t ∨ doubleQuote ∉ t

theorem Text.Plain.isInfix_quoted {t : Text} (h : t.Plain) : t <:+: t.quoted := by
  -- between quotes that it does not have, each of its code points stands for itself
  have hall : ∀ quote : CodePoint, quote ∉ t → t.flatMap (quotedPoint quote) = t := by
    intro quote hquote
    have hpoint : ∀ c ∈ t, quotedPoint quote c = [c] := by
      intro c hc
      obtain ⟨hprintable, hback⟩ := h.shown c hc
      have hhidden : ∀ d : CodePoint, d.isPrintable = false → c ≠ d := by
        rintro d hd rfl
        exact Bool.false_ne_true (hd.symm.trans hprintable)
      have hquoted : c ≠ quote := fun heq => hquote (heq ▸ hc)
      rw [quotedPoint, if_neg (not_or.mpr ⟨hquoted, hback⟩), if_neg (hhidden _ (by decide)),
        if_neg (hhidden _ (by decide)), if_neg (hhidden _ (by decide)), if_pos hprintable]
    rw [List.flatMap_congr hpoint, List.flatMap_singleton']
  rw [quoted]
  split_ifs with hdouble
  · rw [Bool.and_eq_true, Bool.not_eq_true', ← Bool.not_eq_true, List.contains_iff_mem, List.contains_iff_mem]
      at hdouble
    rw [hall _ hdouble.2]
    exact List.infix_append _ _ _
  · rw [Bool.and_eq_true, Bool.not_eq_true', ← Bool.not_eq_true, List.contains_iff_mem, List.contains_iff_mem]
      at hdouble
    have hsingle : singleQuote ∉ t := by
      rcases h.quotable with hsingle | hno
      · exact hsingle
      · exact fun hmem => hdouble ⟨hmem, hno⟩
    rw [hall _ hsingle]
    exact List.infix_append _ _ _

/-! ## Files that yield no text -/

namespace Files

variable {files : Files} {p : Path} {fault : FileFault}

theorem spot_fails {followLast : Bool} (h : files.spot followLast p = .error fault) :
    hasNull p = true ∧ fault = .nullInPath ∨ ∃ cause, fault = Files.fault cause p := by
  rw [spot] at h
  split_ifs at h with hnull hlong
  · exact .inl ⟨hnull, (Except.error.inj h).symm⟩
  · exact .inr ⟨_, (Except.error.inj h).symm⟩
  · split at h
    · cases h
    · exact .inr ⟨_, (Except.error.inj h).symm⟩

/-- A file that is not read has no path, or the fault is about its path. -/
theorem readOctets_fails (h : files.readOctets p = .error fault) :
    hasNull p = true ∧ fault = .nullInPath ∨ ∃ cause, fault = Files.fault cause p := by
  rw [readOctets] at h
  rcases bind_eq_error h with htarget | ⟨node, -, h⟩
  · rw [target] at htarget
    rcases bind_eq_error htarget with hspot | ⟨⟨l, node⟩, -, htarget⟩
    · exact spot_fails hspot
    · cases node with
      | none => exact .inr ⟨_, (Except.error.inj htarget).symm⟩
      | some node => cases htarget
  · cases node with
    | file octets => cases h
    | folder | «sealed» | link target => exact .inr ⟨_, (Except.error.inj h).symm⟩

end Files

/-! ## Settings -/

namespace ConfigFault

variable {path : Text} {fault : ConfigFault}

/-- The faults that are foreseen of a file at a path. -/
inductive About (path : Text) : ConfigFault → Prop where
  | missing : About path (.missing path)
  | unreadable (cause : SystemCause) : About path (.unreadable ⟨cause, path, none⟩)
  | notYaml (how : Yaml.Malformation) : About path (.notYaml path how)
  | notMapping : About path (.notMapping path)
  | notText (key : Text) : About path (.notText path key)
  | unknownKind (name : Text) : About path (.unknownKind path name)
  | badTimeLimit : About path (.badTimeLimit path)

theorem About.isForeseen (h : About path fault) : fault.isForeseen = true := by
  cases h <;> rfl

/-- The message about a file names its path, or quotes it if the system has the word. -/
theorem About.message (h : About path fault) :
    path <:+: fault.message ∨ (∃ f, fault = .unreadable f) ∧ path.quoted <:+: fault.message := by
  cases h with
  | missing => exact .inl ⟨_, [], List.append_nil _⟩
  | unreadable cause =>
    refine .inr ⟨⟨_, rfl⟩, ?_⟩
    exact ⟨"Cannot read project config file: " ++
      ("[Errno " ++ Text.ofNat cause.number ++ "] " ++ cause.message ++ ": "), [],
      by simp [ConfigFault.message, SystemFault.message]⟩
  | notYaml how => exact .inl ⟨"Invalid YAML in ", ": " ++ how.message, by simp [ConfigFault.message]⟩
  | notMapping => exact .inl ⟨[], _, rfl⟩
  | notText key => exact .inl ⟨[], ": '" ++ key ++ "' must be a string", by simp [ConfigFault.message]⟩
  | unknownKind name =>
    exact .inl ⟨[], ": unknown project '" ++ name ++ "' (expected one of: " ++
      Text.join ", " (ProjectKind.all.map ProjectKind.name) ++ ")", by simp [ConfigFault.message]⟩
  | badTimeLimit => exact .inl ⟨[], _, rfl⟩

end ConfigFault

namespace ProjectConfig

variable {files : Files} {p : Path} {path text : Text} {fault : ConfigFault} {settings : ProjectConfig}
  {entries : List (Yaml.Value × Yaml.Value)}

theorem text?_fails {key : Text} (h : text? path entries key = .error fault) : fault.About path := by
  rw [text?] at h
  split at h
  · cases h
  · cases h
  · cases h
    exact .notText key

theorem kind?_fails (h : kind? path entries = .error fault) : fault.About path := by
  rw [kind?] at h
  rcases bind_eq_error h with htext | ⟨name, -, h⟩
  · exact text?_fails htext
  · cases name with
    | none => cases h
    | some name =>
      dsimp only at h
      split at h
      · cases h
      · cases h
        exact .unknownKind name

theorem timeLimit?_fails (h : timeLimit? path entries = .error fault) : fault.About path := by
  rw [timeLimit?] at h
  split at h
  · cases h
  · split_ifs at h
    cases h
    exact .badTimeLimit
  · cases h
    exact .badTimeLimit

/-- A time limit is above zero. -/
theorem timeLimit?_pos {n : Nat} (h : timeLimit? path entries = .ok (some n)) : 1 ≤ n := by
  rw [timeLimit?] at h
  split at h
  · cases h
  · split_ifs at h with hpos
    cases h
    exact Int.pos_iff_toNat_pos.mp hpos
  · cases h

/-- Entries are settings, or what is wrong with them is foreseen. -/
theorem ofEntries_fails (h : ofEntries path entries = .error fault) : fault.About path := by
  rw [ofEntries] at h
  rcases bind_eq_error h with hcache | ⟨cacheFolder, -, h⟩
  · exact text?_fails hcache
  rcases bind_eq_error h with hversion | ⟨version, -, h⟩
  · exact text?_fails hversion
  rcases bind_eq_error h with hkind | ⟨kind, -, h⟩
  · exact kind?_fails hkind
  rcases bind_eq_error h with hlimit | ⟨timeLimit, -, h⟩
  · exact timeLimit?_fails hlimit
  · cases h

theorem timeLimit_ofEntries (h : ofEntries path entries = .ok settings) : 1 ≤ settings.timeLimit := by
  rw [ofEntries] at h
  obtain ⟨cacheFolder, -, h⟩ := bind_eq_ok h
  obtain ⟨version, -, h⟩ := bind_eq_ok h
  obtain ⟨kind, -, h⟩ := bind_eq_ok h
  obtain ⟨timeLimit, hlimit, h⟩ := bind_eq_ok h
  cases h
  cases timeLimit with
  | none => exact (by decide : 1 ≤ Compiler.defaultTimeLimit)
  | some n => exact timeLimit?_pos hlimit

theorem timeLimit_ofText (h : ofText path text = .ok settings) : 1 ≤ settings.timeLimit := by
  rw [ofText] at h
  split at h
  · cases h
  · cases h
  · cases h
    exact (by decide : 1 ≤ Compiler.defaultTimeLimit)
  · exact timeLimit_ofEntries h
  · cases h

/-- What is wrong with a text is foreseen, or it is a fault of its values. -/
theorem ofText_fails (h : ofText path text = .error fault) :
    fault.About path ∨ ∃ f, fault = .badValue f ∧ Yaml.Document.ofText text = .error f ∧ ∀ how, f ≠ .malformed how := by
  rw [ofText] at h
  split at h
  · next how _ =>
    cases h
    exact .inl (.notYaml how)
  · next f hother hfault =>
    cases h
    exact .inr ⟨f, rfl, hfault, hother⟩
  · cases h
  · exact .inl (ofEntries_fails h)
  · cases h
    exact .inl .notMapping

theorem ofText_of_fault {f : Yaml.Fault} (h : Yaml.Document.ofText text = .error f)
    (hother : ∀ how, f ≠ .malformed how) : ofText path text = .error (.badValue f) := by
  rw [ofText, h]
  cases f with
  | malformed how => exact absurd rfl (hother how)
  | _ => rfl

/-- The faults that nothing foresees, and how they arise. -/
inductive Escapes (files : Files) (p : Path) : ConfigFault → Prop where
  | nullInPath (null : Files.hasNull p = true) : Escapes files p .nullInPath
  | octets {octets : Octets} {f : Text.OctetFault} (there : files.readOctets p = .ok octets)
      (undecodable : Text.decodeUtf8 octets = .error f) : Escapes files p (.octets f)
  /-- An escape names a number beyond the last code point. -/
  | codePoint {text : Text} {number : Nat} (there : files.readText p = .ok text)
      (beyond : 0x110000 ≤ number) (unread : Yaml.Document.ofText text = .error (.noCodePoint number)) :
      Escapes files p (.badValue (.noCodePoint number))
  /-- A directive names a version of too many digits. -/
  | version {text : Text} {digits : Nat} (there : files.readText p = .ok text) (many : Json.digitLimit < digits)
      (unread : Yaml.Document.ofText text = .error (.tooManyDigits digits)) :
      Escapes files p (.badValue (.tooManyDigits digits))
  /-- A scalar spells no value of the kind that its tag asks for. -/
  | scalar {text tag written : Text} {f : Yaml.Fault} (there : files.readText p = .ok text)
      (spellsNone : Yaml.readScalar tag written = .error f) (other : ∀ how, f ≠ .malformed how)
      (unread : Yaml.Document.ofText text = .error f) : Escapes files p (.badValue f)

/-- Settings are loaded, or it is foreseen why they are not, or a fault escapes. -/
theorem load_cases (files : Files) (p : Path) :
    (∃ settings, load files p = .ok settings ∧ 1 ≤ settings.timeLimit) ∨
      (∃ fault, load files p = .error fault ∧ fault.About p.text) ∨
      ∃ fault, load files p = .error fault ∧ Escapes files p fault := by
  cases hoctets : files.readOctets p with
  | error f =>
    have hread : files.readText p = .error (.file f) := by
      rw [Files.readText, hoctets]
    -- there are no octets: only a path with a code point zero is not foreseen
    rcases Files.readOctets_fails hoctets with ⟨hnull, rfl⟩ | ⟨cause, rfl⟩
    · exact .inr (.inr ⟨_, by rw [load, hread], .nullInPath hnull⟩)
    · right
      left
      rw [load, hread]
      change ∃ fault, (if cause = .notFound then (.error (.missing p.text) : Except ConfigFault ProjectConfig)
        else .error (.unreadable ⟨cause, p.text, none⟩)) = .error fault ∧ fault.About p.text
      split_ifs
      · exact ⟨_, rfl, .missing⟩
      · exact ⟨_, rfl, .unreadable cause⟩
  | ok octets =>
    cases hdecode : Text.decodeUtf8 octets with
    | error f =>
      have hread : files.readText p = .error (.octets f) := by
        rw [Files.readText, hoctets]
        dsimp only
        rw [hdecode]
      exact .inr (.inr ⟨_, by rw [load, hread], .octets hoctets hdecode⟩)
    | ok t =>
      have hread : files.readText p = .ok t.unifyNewlines := by
        rw [Files.readText, hoctets]
        dsimp only
        rw [hdecode]
      have hload : load files p = ofText p.text t.unifyNewlines := by
        rw [load, hread]
      cases houtcome : ofText p.text t.unifyNewlines with
      | ok settings => exact .inl ⟨settings, hload.trans houtcome, timeLimit_ofText houtcome⟩
      | error fault =>
        right
        rcases ofText_fails houtcome with habout | ⟨f, rfl, hunread, hother⟩
        · exact .inl ⟨fault, hload.trans houtcome, habout⟩
        · refine .inr ⟨_, hload.trans houtcome, ?_⟩
          cases Yaml.Document.arises_of_ofText hunread with
          | malformed how => exact absurd rfl (hother how)
          | escape beyond => exact .codePoint hread beyond hunread
          | version many => exact .version hread many hunread
          | scalar spellsNone => exact .scalar hread spellsNone hother hunread

theorem Escapes.not_isForeseen (h : Escapes files p fault) : fault.isForeseen = false := by
  cases h <;> rfl

theorem Escapes.load (h : Escapes files p fault) : ProjectConfig.load files p = .error fault := by
  -- a fault of a value comes out as it is, whatever it is, unless it says that the text is malformed
  have hvalue : ∀ {text : Text} {f : Yaml.Fault}, files.readText p = .ok text →
      Yaml.Document.ofText text = .error f → (∀ how, f ≠ .malformed how) →
      ProjectConfig.load files p = .error (.badValue f) := by
    intro text f hread hunread hother
    rw [ProjectConfig.load, hread]
    exact ofText_of_fault hunread hother
  cases h with
  | nullInPath null =>
    have hspot : files.spot true p = .error .nullInPath := Files.spot_eq_nullInPath_iff.mpr null
    rw [ProjectConfig.load, Files.readText, Files.readOctets, Files.target, hspot]
    rfl
  | octets there undecodable =>
    rw [ProjectConfig.load, Files.readText, there]
    dsimp only
    rw [undecodable]
  | codePoint there _ unread => exact hvalue there unread (by rintro _ ⟨⟩)
  | version there _ unread => exact hvalue there unread (by rintro _ ⟨⟩)
  | scalar there _ other unread => exact hvalue there unread other

theorem escapes_iff : (ProjectConfig.load files p = .error fault ∧ fault.isForeseen = false) ↔
    Escapes files p fault := by
  constructor
  · rintro ⟨hload, hforeseen⟩
    rcases load_cases files p with ⟨settings, hloaded, -⟩ | ⟨fault', hfault, habout⟩ | ⟨fault', hfault, hescapes⟩
    · cases hload.symm.trans hloaded
    · obtain rfl := Except.error.inj (hload.symm.trans hfault)
      cases hforeseen.symm.trans habout.isForeseen
    · obtain rfl := Except.error.inj (hload.symm.trans hfault)
      exact hescapes
  · exact fun h => ⟨h.load, h.not_isForeseen⟩

end ProjectConfig

/-! ## Commands -/

namespace CommandLine

variable {w : Workshop} {a : BuildArguments} {folder : Path} {fault : ConfigFault}

/-- A file of settings that is there is loaded. -/
theorem config_of_there {files : Files} (hthere : files.exists? (folder.child ProjectConfig.fileName) = .ok true) :
    config files folder = match ProjectConfig.load files (folder.child ProjectConfig.fileName) with
      | .ok config => pure (.ok config)
      | .error (.octets fault) => .error (.unforeseen (.octets fault))
      | .error .nullInPath => .error (.unforeseen .nullInPath)
      | .error (.badValue fault) => .error (.unforeseen (.badScalar fault))
      | .error fault => pure (.error (.failed fault.message)) := by
  rw [config, hthere]
  rfl

/-- A command ends as it is foreseen that settings cannot be read, or the fault escapes. -/
theorem config_of_fault {files : Files} (hthere : files.exists? (folder.child ProjectConfig.fileName) = .ok true)
    (hload : ProjectConfig.load files (folder.child ProjectConfig.fileName) = .error fault) :
    (fault.isForeseen = true → config files folder = .ok (.error (.failed fault.message))) ∧
      (fault.isForeseen = false → ∃ defect, config files folder = .error (.unforeseen defect)) := by
  rw [config_of_there hthere, hload]
  cases fault with
  | octets f | nullInPath | badValue f => exact ⟨fun h => absurd h Bool.false_ne_true, fun _ => ⟨_, rfl⟩⟩
  | _ => exact ⟨fun _ => rfl, fun h => absurd h.symm Bool.false_ne_true⟩

/-- **Loading settings fails with a message that names the file, or the fault escapes**, and it is known of which texts
it does. A command that builds a project answers the former with code one and leaves everything alone; the latter end
it without a code. -/
theorem broken_config_foreseen_or_escapes (files : Files) (p : Path) :
    (∀ settings, ProjectConfig.load files p = .ok settings → 1 ≤ settings.timeLimit) ∧
    (∀ fault, ProjectConfig.load files p = .error fault → fault.isForeseen = true →
      (p.text <:+: fault.message ∨ (∃ f, fault = .unreadable f) ∧ p.text.quoted <:+: fault.message) ∧
      (p.text.Plain → p.text <:+: fault.message)) ∧
    (∀ fault, (ProjectConfig.load files p = .error fault ∧ fault.isForeseen = false) ↔
      ProjectConfig.Escapes files p fault) ∧
    ∀ (arguments : List Text) (a : BuildArguments) (w : Workshop) (folder : Path) (fault : ConfigFault),
      Request.ofArguments arguments = .build a → CommandLine.folder w.files a.folder = .ok (.ok folder) →
      w.files.exists? (folder.child ProjectConfig.fileName) = .ok true →
      ProjectConfig.load w.files (folder.child ProjectConfig.fileName) = .error fault →
        (fault.isForeseen = true → (run arguments).result w = (w, .ok (.failed fault.message))) ∧
        (fault.isForeseen = false → ∃ defect, (run arguments).result w = (w, .error (.unforeseen defect))) := by
  refine ⟨fun settings hload => ?_, fun fault hload hforeseen => ?_, fun fault => ProjectConfig.escapes_iff, ?_⟩
  · rcases ProjectConfig.load_cases files p with ⟨settings', hloaded, hlimit⟩ | ⟨fault, hfault, -⟩ |
      ⟨fault, hfault, -⟩
    · obtain rfl := Except.ok.inj (hload.symm.trans hloaded)
      exact hlimit
    · cases hload.symm.trans hfault
    · cases hload.symm.trans hfault
  · have habout : fault.About p.text := by
      rcases ProjectConfig.load_cases files p with ⟨settings, hloaded, -⟩ | ⟨fault', hfault, habout⟩ |
        ⟨fault', hfault, hescapes⟩
      · cases hload.symm.trans hloaded
      · rwa [Except.error.inj (hload.symm.trans hfault)]
      · obtain rfl := Except.error.inj (hload.symm.trans hfault)
        cases hforeseen.symm.trans hescapes.not_isForeseen
    refine ⟨habout.message, fun hplain => ?_⟩
    rcases habout.message with hnamed | ⟨-, hquoted⟩
    · exact hnamed
    · exact hplain.isInfix_quoted.trans hquoted
  · intro arguments a w folder fault harguments hfolder hthere hload
    obtain ⟨hforeseen, hescaped⟩ := config_of_fault hthere hload
    rw [result_run arguments harguments, result_build, hfolder, follow_ok]
    dsimp only
    refine ⟨fun h => ?_, fun h => ?_⟩
    · rw [hforeseen h]
      rfl
    · obtain ⟨defect, hdefect⟩ := hescaped h
      rw [hdefect]
      exact ⟨defect, rfl⟩

/-- A file of settings that is no text. -/
def octetFolder : Files := { entries := [([ProjectConfig.fileName], .file [0xff])] }

/-- Loading the settings fails without a message that names the file, and nothing foresees it. -/
theorem octetFolder_escapes : ∃ fault,
    ProjectConfig.load octetFolder ⟨1, [ProjectConfig.fileName]⟩ = .error fault ∧ fault.isForeseen = false ∧
      ¬ (Path.text ⟨1, [ProjectConfig.fileName]⟩ <:+: fault.message) := by
  have hoctets : octetFolder.readOctets ⟨1, [ProjectConfig.fileName]⟩ = .ok [0xff] := by decide +kernel
  have hdecode : Text.decodeUtf8 [0xff] = .error ⟨0, 0xff, 1, .invalidStart⟩ := by
    rw [Text.decodeUtf8, Text.decodeFrom]
    rfl
  refine ⟨_, (ProjectConfig.Escapes.octets hoctets hdecode).load, rfl, fun hnamed => ?_⟩
  -- there is no separator in the message
  have hseparator : Path.separator ∉ (ConfigFault.octets ⟨0, 0xff, 1, .invalidStart⟩).message := by decide +kernel
  exact hseparator (hnamed.subset (by decide))

end CommandLine

end SolidityBuild
