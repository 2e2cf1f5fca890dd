import SolidityBuild.Proofs.Project.Sources
import SolidityBuild.Proofs.Text.Lines
import SolidityBuild.Proofs.Text.Utf8

/-!
Remappings and the file that lists them. A remapping is listed on a line of its own, and there are many ways to write
the same list: spaces and tabs around a remapping, lines without any, and three ways to end a line. All of them are
read alike; and what is read of a file, whatever it holds, can be written one to a line and is read back.

What ends a line is blank, so the blanks between two remappings may be passed over one by one, without asking which of
them end a line. Only the end of a line with a remapping has to be found.
-/

set_option autoImplicit false

namespace SolidityBuild

namespace Project

variable {files : Files} {folder : Path} {octets : Octets} {c : CodePoint} {r line pad stop right t : Text}
  {rs others : List Text}

/-! ## Files that list remappings -/

/-- A remapping as it may be listed: there is something of it, nothing blank at either end, and no line end in it. -/
structure IsRemapping (r : Text) : Prop where
  ne_nil : r ≠ []
  begins : ∀ c ∈ r.head?, c.isBlank = false
  ends : ∀ c ∈ r.getLast?, c.isBlank = false
  line : ∀ c ∈ r, c.endsLine = false

/-- Spaces and tabs. -/
def IsPadding (t : Text) : Prop := ∀ c ∈ t, c = 32 ∨ c = 9

/-- What ends a line of a file. -/
inductive LineEnd : Text → Prop where
  | feed : LineEnd [10]
  | returnFeed : LineEnd [13, 10]
  | carriageReturn : LineEnd [13]

/-- A line without its end lists one remapping, which may be padded, or it is blank and lists none. -/
inductive OnLine : List Text → Text → Prop where
  | blank {line : Text} (blank : ∀ c ∈ line, c.isBlank = true) : OnLine [] line
  | entry {left right : Text} (r : Text) (before : IsPadding left) (behind : IsPadding right) :
      OnLine [r] (left ++ (r ++ right))

/-- A text lists remappings line by line. Its last line need not end. -/
inductive Lists : List Text → Text → Prop where
  | last {rs : List Text} {line : Text} (only : OnLine rs line) : Lists rs line
  | line {rs others : List Text} {line stop t : Text} (first : OnLine rs line) (ended : LineEnd stop)
      (rest : Lists others t) : Lists (rs ++ others) (line ++ (stop ++ t))

/-- The plainest listing: every remapping with a line feed behind it. -/
def listing (rs : List Text) : Text := rs.flatMap fun r => r ++ [10]

theorem lists_listing (rs : List Text) : Lists rs (listing rs) := by
  induction rs with
  | nil => exact .last (.blank (List.forall_mem_nil _))
  | cons r rs ih =>
    have hnone : IsPadding [] := List.forall_mem_nil _
    have hline := Lists.line (.entry r hnone hnone) .feed ih
    rwa [List.append_nil, List.nil_append, ← List.append_assoc] at hline

/-! ## What is read of a text -/

theorem remappingsOfText_eq {first : Text} (h : t.lines = first :: others) : remappingsOfText t =
    (if first.trim = [] then [] else [first.trim]) ++ (others.map Text.trim).filter fun line => !line.isEmpty := by
  rw [remappingsOfText, h, List.map_cons]
  cases htrim : first.trim with
  | nil => rw [if_pos rfl]; rfl
  | cons c rest => rw [if_neg (List.cons_ne_nil c rest)]; rfl

/-- A blank in front of a text may be passed over, whether it ends a line or not. -/
theorem remappingsOfText_cons_blank (hc : c.isBlank = true) (t : Text) :
    remappingsOfText (c :: t) = remappingsOfText t := by
  cases hends : c.endsLine with
  | true =>
    rcases Text.lines_cons_end_cases hends t with h | ⟨-, -, h⟩
    · rw [remappingsOfText_eq h]
      exact if_pos rfl ▸ rfl
    · rw [remappingsOfText, h, remappingsOfText]
  | false =>
    rw [remappingsOfText, Text.lines_cons_inner hends, remappingsOfText]
    cases t.lines with
    | nil =>
      rw [List.map_singleton, Text.trim_cons_blank hc]
      rfl
    | cons first others =>
      rw [List.map_cons, Text.trim_cons_blank hc, List.map_cons]

theorem remappingsOfText_blank_append (hpad : ∀ c ∈ pad, c.isBlank = true) (t : Text) :
    remappingsOfText (pad ++ t) = remappingsOfText t := by
  induction pad with
  | nil => rfl
  | cons c pad ih =>
    obtain ⟨hc, hpad⟩ := List.forall_mem_cons.mp hpad
    rw [List.cons_append, remappingsOfText_cons_blank hc, ih hpad]

theorem remappingsOfText_of_blank (hpad : ∀ c ∈ pad, c.isBlank = true) : remappingsOfText pad = [] := by
  have h := remappingsOfText_blank_append hpad []
  rwa [List.append_nil] at h

theorem IsPadding.isBlank (h : IsPadding pad) : ∀ c ∈ pad, c.isBlank = true := by
  intro c hc
  rcases h c hc with rfl | rfl <;> decide

theorem IsPadding.endsLine (h : IsPadding pad) : ∀ c ∈ pad, c.endsLine = false := by
  intro c hc
  rcases h c hc with rfl | rfl <;> decide

theorem LineEnd.exists_cons (h : LineEnd stop) :
    ∃ c rest, stop = c :: rest ∧ c.endsLine = true ∧ ∀ d ∈ rest, d.isBlank = true := by
  cases h with
  | feed => exact ⟨10, [], rfl, by decide, List.forall_mem_nil _⟩
  | returnFeed => exact ⟨13, [10], rfl, by decide, List.forall_mem_singleton.mpr (by decide)⟩
  | carriageReturn => exact ⟨13, [], rfl, by decide, List.forall_mem_nil _⟩

/-- Nothing that stands on another line makes a difference to the remapping on a line. -/
theorem remappingsOfText_entry_append (hr : IsRemapping r) (hright : IsPadding right) (hstop : LineEnd stop)
    (t : Text) : remappingsOfText (r ++ right ++ (stop ++ t)) = r :: remappingsOfText t := by
  obtain ⟨c, rest, rfl, hc, hrest⟩ := hstop.exists_cons
  have hinner : ∀ c ∈ r ++ right, c.endsLine = false := List.forall_mem_append.mpr ⟨hr.line, hright.endsLine⟩
  have htrim : (r ++ right).trim = r := Text.trim_append_blank hr.ne_nil hr.begins hr.ends hright.isBlank
  obtain ⟨others, hothers⟩ := Text.exists_lines_cons_end hc (rest ++ t)
  have hpassed : remappingsOfText t = (others.map Text.trim).filter fun line => !line.isEmpty := by
    rw [← remappingsOfText_blank_append hrest, ← remappingsOfText_cons_blank (CodePoint.isBlank_of_endsLine hc),
      remappingsOfText_eq hothers]
    rfl
  rw [List.cons_append, remappingsOfText_eq (Text.lines_line_append hinner hothers), htrim, if_neg hr.ne_nil, hpassed]
  rfl

theorem remappingsOfText_entry (hr : IsRemapping r) (hright : IsPadding right) :
    remappingsOfText (r ++ right) = [r] := by
  have hinner : ∀ c ∈ r ++ right, c.endsLine = false := List.forall_mem_append.mpr ⟨hr.line, hright.endsLine⟩
  have hline := Text.lines_of_line hinner (List.append_ne_nil_of_left_ne_nil hr.ne_nil right)
  rw [remappingsOfText_eq hline, Text.trim_append_blank hr.ne_nil hr.begins hr.ends hright.isBlank, if_neg hr.ne_nil]
  rfl

/-- **What a text lists is read**, however it is written. The induction is on the lines. -/
theorem remappingsOfText_of_lists (h : Lists rs t) (hrs : ∀ r ∈ rs, IsRemapping r) : remappingsOfText t = rs := by
  induction h with
  | last only =>
    cases only with
    | blank hblank => exact remappingsOfText_of_blank hblank
    | entry r hleft hright =>
      rw [remappingsOfText_blank_append hleft.isBlank]
      exact remappingsOfText_entry (List.forall_mem_singleton.mp hrs) hright
  | @line _ _ _ _ t first ended rest ih =>
    obtain ⟨hfirst, hothers⟩ := List.forall_mem_append.mp hrs
    cases first with
    | blank hblank =>
      obtain ⟨c, more, rfl, hc, hmore⟩ := ended.exists_cons
      rw [remappingsOfText_blank_append hblank, List.cons_append,
        remappingsOfText_cons_blank (CodePoint.isBlank_of_endsLine hc), remappingsOfText_blank_append hmore, ih hothers]
      rfl
    | entry r hleft hright =>
      have hr : IsRemapping r := List.forall_mem_singleton.mp hfirst
      rw [List.append_assoc, remappingsOfText_blank_append hleft.isBlank, remappingsOfText_entry_append hr hright ended,
        ih hothers]
      rfl

/-- **Whatever a text holds, remappings are read of it**, and all of them is from the text. -/
theorem of_mem_remappingsOfText (h : r ∈ remappingsOfText t) : IsRemapping r ∧ r ⊆ t := by
  obtain ⟨hr, hne⟩ := List.mem_filter.mp h
  obtain ⟨line, hline, rfl⟩ := List.mem_map.mp hr
  obtain ⟨hinner, hsubset⟩ := Text.of_mem_lines hline
  have htrimmed := Text.trim_subset line
  refine ⟨⟨fun hempty => ?_, Text.endsRun_trim line, Text.isBlank_getLast?_trim line, fun c hc => ?_⟩,
    List.Subset.trans htrimmed hsubset⟩
  · rw [hempty] at hne
    exact nomatch hne
  · exact hinner c (htrimmed hc)

/-! ## What is read of a file -/

theorem remappings_of_target (htarget : files.target (folder.child remappingsName) = .ok (.file octets))
    (hdecoded : Text.decodeUtf8 octets = .ok t) : remappings files folder = pure (remappingsOfText t) := by
  have hfile : files.isFile (folder.child remappingsName) = .ok true := by
    rw [Files.isFile, Files.holds, htarget]
  have hread : readText files (folder.child remappingsName) = .ok t.unifyNewlines := by
    have hoctets : files.readOctets (folder.child remappingsName) = .ok octets := by
      rw [Files.readOctets, htarget]
      rfl
    rw [readText, Files.readText, hoctets]
    dsimp only
    rw [hdecoded]
  have hlines : remappingsOfText t.unifyNewlines = remappingsOfText t := by
    rw [remappingsOfText, Text.lines_unifyNewlines, remappingsOfText]
  rw [remappings, hfile, hread, ← hlines]
  rfl

/-- The remappings that a file lists are read. -/
theorem remappings_of_lists (htarget : files.target (folder.child remappingsName) = .ok (.file octets))
    (hencoded : Text.encodeUtf8 t = .ok octets) (hlists : Lists rs t) (hrs : ∀ r ∈ rs, IsRemapping r) :
    remappings files folder = pure rs := by
  obtain ⟨hscalar, rfl⟩ := Text.encodeUtf8_eq_ok hencoded
  rw [remappings_of_target htarget (Text.decodeUtf8_flatMap_octetsOf hscalar), remappingsOfText_of_lists hlists hrs]

theorem scalar_listing (ht : t.Scalar) (hrs : ∀ r ∈ rs, r ⊆ t) : (listing rs).Scalar := by
  intro c hc
  obtain ⟨r, hr, hc⟩ := List.mem_flatMap.mp hc
  rcases List.mem_append.mp hc with hc | hc
  · exact ht c (hrs r hr hc)
  · rw [List.mem_singleton.mp hc]
    rfl

/-- **Remappings that are listed in a file are read as they are listed**, whatever stands around them and however its
lines end. Of any other file that holds a text, remappings are read too; so they may be written to it one to a line,
and the same ones are read again. -/
theorem remappings_round_trip (hfiles : files.WellFormed)
    (htarget : files.target (folder.child remappingsName) = .ok (.file octets)) :
    (∀ rs t, (∀ r ∈ rs, IsRemapping r) → Lists rs t → Text.encodeUtf8 t = .ok octets →
      remappings files folder = pure rs) ∧
    ∀ t, Text.decodeUtf8 octets = .ok t → ∃ rs octets' files', remappings files folder = pure rs ∧
      (∀ r ∈ rs, IsRemapping r) ∧ Text.encodeUtf8 (listing rs) = .ok octets' ∧
      files.write (folder.child remappingsName) octets' = .ok files' ∧ remappings files' folder = pure rs := by
  refine ⟨fun rs t hrs hlists hencoded => ?_, fun t hdecoded => ?_⟩
  · exact remappings_of_lists htarget hencoded hlists hrs
  have hread : ∀ r ∈ remappingsOfText t, IsRemapping r ∧ r ⊆ t := fun _ => of_mem_remappingsOfText
  have hscalar : (listing (remappingsOfText t)).Scalar :=
    scalar_listing (Text.scalar_of_decodeUtf8 hdecoded) fun r hr => (hread r hr).2
  have hencoded := Text.encodeUtf8_of_scalar hscalar
  obtain ⟨files', hwrite, htarget'⟩ :=
    hfiles.exists_write htarget ((listing (remappingsOfText t)).flatMap Text.octetsOf)
  exact ⟨_, _, files', remappings_of_target htarget hdecoded, fun r hr => (hread r hr).1, hencoded, hwrite,
    remappings_of_lists htarget' hencoded (lists_listing _) fun r hr => (hread r hr).1⟩

/-- Two remappings, the second one with a blank in it. -/
def unevenRemappings : List Text := ["@oz/=lib/oz/", "ds-test/=lib/ds test/"]

/-- They are listed with blanks around them and between them, and with a line end of every kind. -/
def unevenListing : Text := "\t@oz/=lib/oz/ \r\n\n \x0b\r  ds-test/=lib/ds test/"

theorem isRemapping_of_mem_unevenRemappings : ∀ r ∈ unevenRemappings, IsRemapping r := by
  have hplain : ∀ o : Option CodePoint, (o.all fun c => !c.isBlank) = true → ∀ c ∈ o, c.isBlank = false := by
    rintro _ h c rfl
    exact (Bool.not_eq_true' _).mp h
  have hline : ∀ t : Text, (t.all fun c => !c.endsLine) = true → ∀ c ∈ t, c.endsLine = false := fun t h c hc =>
    (Bool.not_eq_true' _).mp (List.all_eq_true.mp h c hc)
  refine List.forall_mem_cons.mpr ⟨?_, List.forall_mem_singleton.mpr ?_⟩
  all_goals exact ⟨List.cons_ne_nil _ _, hplain _ rfl, hplain _ rfl, hline _ rfl⟩

theorem lists_unevenListing : Lists unevenRemappings unevenListing := by
  have hpadding : ∀ t : Text, t.all (fun c => c = 32 ∨ c = 9) = true → IsPadding t := fun t h c hc =>
    of_decide_eq_true (List.all_eq_true.mp h c hc)
  have hblank : ∀ t : Text, t.all CodePoint.isBlank = true → OnLine [] t := fun t h => .blank (List.all_eq_true.mp h)
  have hfirst : OnLine ["@oz/=lib/oz/"] "\t@oz/=lib/oz/ " := .entry _ (hpadding [9] rfl) (hpadding [32] rfl)
  have hlast : OnLine ["ds-test/=lib/ds test/"] "  ds-test/=lib/ds test/" :=
    .entry _ (hpadding [32, 32] rfl) (hpadding [] rfl)
  have hblanks := Lists.line (hblank [] rfl) .feed (.line (hblank [32, 11] rfl) .carriageReturn (.last hlast))
  exact .line hfirst .returnFeed hblanks

/-- A folder with the file in it. -/
def unevenFolder : Files := { entries := [([remappingsName], .file (unevenListing.flatMap Text.octetsOf))] }

/-- The two remappings are read, and nothing else; and they are read again once they are written one to a line. -/
theorem remappings_round_trip_of_unevenListing : unevenFolder.WellFormed ∧
    unevenFolder.target (Path.child ⟨1, []⟩ remappingsName) = .ok (.file (unevenListing.flatMap Text.octetsOf)) ∧
    (∀ r ∈ unevenRemappings, IsRemapping r) ∧ Lists unevenRemappings unevenListing ∧
    Text.encodeUtf8 unevenListing = .ok (unevenListing.flatMap Text.octetsOf) ∧
    Text.decodeUtf8 (unevenListing.flatMap Text.octetsOf) = .ok unevenListing ∧
    remappings unevenFolder ⟨1, []⟩ = pure unevenRemappings ∧
    ∃ octets files', Text.encodeUtf8 (listing unevenRemappings) = .ok octets ∧
      unevenFolder.write (Path.child ⟨1, []⟩ remappingsName) octets = .ok files' ∧
      remappings files' ⟨1, []⟩ = pure unevenRemappings := by
  have hfiles : unevenFolder.WellFormed :=
    Files.WellFormed.empty.put (l := [remappingsName]) (by decide) rfl (by decide) (by decide) _
  have htarget : unevenFolder.target (Path.child ⟨1, []⟩ remappingsName) =
      .ok (.file (unevenListing.flatMap Text.octetsOf)) := by decide
  have hencoded : Text.encodeUtf8 unevenListing = .ok (unevenListing.flatMap Text.octetsOf) := by decide
  have hdecoded : Text.decodeUtf8 (unevenListing.flatMap Text.octetsOf) = .ok unevenListing :=
    Text.decodeUtf8_flatMap_octetsOf (Text.encodeUtf8_eq_ok hencoded).1
  obtain ⟨hlisted, hrewritten⟩ := remappings_round_trip hfiles htarget
  have hread := hlisted _ _ isRemapping_of_mem_unevenRemappings lists_unevenListing hencoded
  obtain ⟨rs, octets, files', hread', -, hencoded', hwrite, hagain⟩ := hrewritten _ hdecoded
  obtain rfl : rs = unevenRemappings := Except.ok.inj (congrArg Narrated.outcome (hread'.symm.trans hread))
  exact ⟨hfiles, htarget, isRemapping_of_mem_unevenRemappings, lists_unevenListing, hencoded, hdecoded, hread,
    octets, files', hencoded', hwrite, hagain⟩

end Project

end SolidityBuild
