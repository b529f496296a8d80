import StyleTally.Proofs.Census.Share

/-!
# Files that end a worker

In a known encoding, every file is read and parsed or skipped for a problem of its own, but for two
kinds: a path that no file can have, and a text of two-byte units that does not tell their order.
-/

namespace StyleTally

namespace FileTree

theorem walk_ne_badCharacter (t : FileTree) (making : Bool) (links : Nat) (here names : List String) :
    t.walk making links here names ≠ .error .badCharacter := by
  fun_induction walk t making links here names <;> simp_all

theorem checkText_badCharacter {s : String} (h : checkText s = .error .badCharacter) :
    '\x00' ∈ s.toList := by
  rw [checkText] at h
  split at h
  · rename_i hmem
    simpa using hmem
  · split at h <;> cases h

theorem place_badCharacter {t : FileTree} {making : Bool} {s : String}
    (h : t.place making s = .error .badCharacter) : '\x00' ∈ s.toList := by
  rw [place] at h
  cases hcheck : checkText s with
  | error fault =>
    rw [hcheck] at h
    cases h
    exact checkText_badCharacter hcheck
  | ok u =>
    rw [hcheck] at h
    by_cases hempty : s.isEmpty
    · simp [hempty, bind, Except.bind, throw, throwThe, MonadExceptOf.throw] at h
    · simp only [hempty, bind, Except.bind] at h
      exact absurd h (t.walk_ne_badCharacter _ _ _ _)

theorem find_badCharacter {t : FileTree} {s : String} (h : t.find s = .error .badCharacter) :
    '\x00' ∈ s.toList := by
  rw [find] at h
  cases hplace : t.place false s with
  | error fault =>
    rw [hplace] at h
    cases h
    exact place_badCharacter hplace
  | ok place =>
    rw [hplace] at h
    cases place with
    | free names => cases h
    | taken names =>
      simp only [bind, Except.bind] at h
      split at h <;> cases h

/-- Only a path that holds the character is refused for it. -/
theorem read_badCharacter {t : FileTree} {s : String} (h : t.read s = .error .badCharacter) :
    '\x00' ∈ s.toList := by
  rw [read] at h
  cases hfind : t.find s with
  | error fault =>
    rw [hfind] at h
    cases h
    exact find_badCharacter hfind
  | ok found =>
    rw [hfind] at h
    obtain ⟨names, entry⟩ := found
    cases entry <;> cases h

end FileTree

namespace Text

theorem map_error {α β : Type} {f : α → β} {x : Except DecodingFault α} {fault : DecodingFault}
    (h : x ≠ .error fault) : x.map f ≠ .error fault := by
  cases x with
  | error e => simpa [Except.map] using h
  | ok a => simp [Except.map]

theorem decodeUtf8From_ne_noByteOrder (part : Option Partial) (bs : List UInt8) :
    decodeUtf8From part bs ≠ .error .noByteOrder := by
  fun_induction decodeUtf8From part bs <;> simp_all [map_error]

theorem decodeUnits_ne_noByteOrder (little : Bool) (high : Option Nat) (bs : List UInt8) :
    decodeUnits little high bs ≠ .error .noByteOrder := by
  fun_induction decodeUnits little high bs <;> simp_all [map_error]

theorem decodeAscii_ne_noByteOrder (bs : List UInt8) : decodeAscii bs ≠ .error .noByteOrder := by
  fun_induction decodeAscii bs <;> simp_all [map_error]

/-- Only where the order of bytes is to be told by the text can it be missing. -/
theorem Encoding.eq_utf16_of_decode {e : Encoding} {bs : List UInt8}
    (h : e.decode bs = .error .noByteOrder) : e = .utf16 := by
  cases e with
  | utf16 => rfl
  | utf8 => exact absurd h (decodeUtf8From_ne_noByteOrder none bs)
  | utf8Signed =>
    rw [decode, decodeUtf8Signed.eq_def] at h
    split at h
    · cases h
    · cases h
    · exact absurd h (decodeUtf8From_ne_noByteOrder none _)
    · exact absurd h (decodeUtf8From_ne_noByteOrder none bs)
  | utf16Little => exact absurd h (decodeUnits_ne_noByteOrder true none bs)
  | utf16Big => exact absurd h (decodeUnits_ne_noByteOrder false none bs)
  | latin1 => cases h
  | ascii => exact absurd h (decodeAscii_ne_noByteOrder bs)

end Text

/-- The encoding of a census is one of the seven, by its name; a census without one reads UTF-8. -/
def Settings.Reads (s : Settings) (e : Text.Encoding) : Prop :=
  ∃ name?, s.encoding = .ok name? ∧ '\x00' ∉ (name?.getD "None").toList ∧
    name?.elim (some .utf8) Text.Encoding.ofName? = some e

theorem Settings.reads_standard : Settings.standard.Reads .utf8 :=
  ⟨some "utf-8", rfl, by decide, rfl⟩

namespace Pool

/-- A path that no file can have, or a file whose text does not tell the order of its bytes. -/
def Fatal (e : Text.Encoding) (files : FileTree) (path : String) : Prop :=
  '\x00' ∈ path.toList ∨ ∃ bytes, files.read path = .ok bytes ∧ e.decode bytes = .error .noByteOrder

variable {s : Settings} {e : Text.Encoding} {files : FileTree}

theorem fatal_iff_of_ne_utf16 (he : e ≠ .utf16) {path : String} :
    Fatal e files path ↔ '\x00' ∈ path.toList := by
  constructor
  · rintro (hpath | ⟨bytes, -, hdecode⟩)
    · exact hpath
    · exact absurd (Text.Encoding.eq_utf16_of_decode hdecode) he
  · exact .inl

theorem readSource_of_fatal {name? : Option String} (hname : '\x00' ∉ (name?.getD "None").toList)
    (he : name?.elim (some .utf8) Text.Encoding.ofName? = some e) {path : String}
    (h : Fatal e files path) : ∃ fault, readSource files name? path = .error fault ∧
      ∀ p, fault ≠ .problem p := by
  rw [readSource, if_neg (by simpa using hname)]
  rcases h with hpath | ⟨bytes, hread, hdecode⟩
  · have hread : files.read path = .error .badCharacter := by
      have hcheck : FileTree.checkText path = .error .badCharacter := by
        rw [FileTree.checkText, if_pos (by simpa using hpath)]
      rw [FileTree.read, FileTree.find, FileTree.place, hcheck]
      rfl
    rw [hread]
    exact ⟨.badPath, rfl, by simp⟩
  · rw [hread]
    simp only [he, hdecode]
    exact ⟨.noByteOrder, rfl, by simp⟩

theorem readSource_of_not_fatal {name? : Option String}
    (hname : '\x00' ∉ (name?.getD "None").toList)
    (he : name?.elim (some .utf8) Text.Encoding.ofName? = some e) {path : String}
    (h : ¬ Fatal e files path) {fault : SourceFault}
    (hfault : readSource files name? path = .error fault) : ∃ p, fault = .problem p := by
  rw [readSource, if_neg (by simpa using hname)] at hfault
  cases hread : files.read path with
  | error reason =>
    rw [hread] at hfault
    cases reason with
    | badCharacter => exact absurd (.inl (FileTree.read_badCharacter hread)) h
    | missing | alreadyThere | notFolder | isFolder | nameTooLong | tooManyLinks =>
      cases hfault
      exact ⟨_, rfl⟩
  | ok bytes =>
    rw [hread] at hfault
    simp only [he] at hfault
    cases hdecode : e.decode bytes with
    | ok cs =>
      rw [hdecode] at hfault
      cases hfault
    | error reason =>
      rw [hdecode] at hfault
      cases reason with
      | noByteOrder => exact absurd (.inr ⟨bytes, hread, hdecode⟩) h
      | invalidStart | invalidContinuation | endsEarly | notAscii | oddLength | lowSurrogate
      | highSurrogateAlone =>
        cases hfault
        exact ⟨_, rfl⟩

theorem attempt_eq {name? : Option String} (hencoding : s.encoding = .ok name?) (path : String) :
    attempt s files path = ((readSource files name? path).mapError .source).bind fun source =>
      (parseSheet s.depthLimit (some path) source).mapError fun p => .source (.problem p) := by
  rw [attempt, Worker.parse, Worker.start, hencoding]
  rfl

/-- In a known encoding, a file ends a worker just if it is fatal. -/
theorem fatal_iff (hknown : s.Reads e) (path : String) :
    Fatal e files path ↔
      ∃ crash, attempt s files path = .error crash ∧ ∀ p, crash ≠ .source (.problem p) := by
  obtain ⟨name?, hencoding, hname, he⟩ := hknown
  rw [attempt_eq hencoding]
  constructor
  · intro h
    obtain ⟨fault, hfault, hproblem⟩ := readSource_of_fatal hname he h
    rw [hfault]
    exact ⟨.source fault, rfl, fun p hp => hproblem p (Crash.source.inj hp)⟩
  · rintro ⟨crash, hcrash, hproblem⟩
    by_contra h
    cases hread : readSource files name? path with
    | error fault =>
      obtain ⟨p, rfl⟩ := readSource_of_not_fatal hname he h hread
      rw [hread] at hcrash
      cases hcrash
      exact hproblem p rfl
    | ok source =>
      rw [hread] at hcrash
      cases hparse : parseSheet s.depthLimit (some path) source with
      | error p =>
        change (parseSheet s.depthLimit (some path) source).mapError _ = _ at hcrash
        rw [hparse] at hcrash
        cases hcrash
        exact hproblem p rfl
      | ok sheet =>
        change (parseSheet s.depthLimit (some path) source).mapError _ = _ at hcrash
        rw [hparse] at hcrash
        cases hcrash

/-- Where no file is fatal, no file ends a worker. -/
theorem steady_of_not_fatal (hknown : s.Reads e) {paths : List String}
    (h : ∀ path ∈ paths, ¬ Fatal e files path) : Steady s files paths := by
  intro path hpath crash hcrash
  by_contra hproblem
  apply h path hpath
  rw [fatal_iff hknown]
  exact ⟨crash, hcrash, fun p hp => hproblem ⟨p, hp⟩⟩

/-- In the standard settings only a path ends a worker, and no file. -/
theorem steady_standard {paths : List String} (h : ∀ path ∈ paths, '\x00' ∉ path.toList) :
    Steady .standard files paths := by
  apply steady_of_not_fatal Settings.reads_standard
  intro path hpath
  rw [fatal_iff_of_ne_utf16 (by decide)]
  exact h path hpath

end Pool

end StyleTally
