import RuntimeAnalyzer.BatchVerdict
import RuntimeAnalyzer.Lib.Hexadecimal

/-!
# The artifacts of a batch

Where the binaries of a batch go. `artifacts_stay_inside` places each directly in the output
directory, under a name that its hash can be read from. `artifacts_equal_iff` says which sources
share a binary: those whose names look alike once sanitized and whose hashes collide, as those of
`same_artifact` do.
-/

namespace RuntimeAnalyzer

/-! ## The hash -/

/-- One step of the hash can be undone: the factor is odd. -/
theorem hash_step_inj {hash hash' : UInt64}
    (h : hash * 1099511628211 = hash' * 1099511628211) : hash = hash' := by
  have hundo : ∀ x : UInt64, x * 1099511628211 * 14886173955864302971 = x := fun x => by
    rw [UInt64.mul_assoc, show (1099511628211 * 14886173955864302971 : UInt64) = 1 from by decide,
      UInt64.mul_one]
  rw [← hundo hash, h, hundo]

/-- Texts of equal length that differ in a single byte never collide. -/
theorem stable_path_hash_single_iff (before after : Bytes) (byte byte' : Byte) :
    stablePathHash (before ++ byte :: after) = stablePathHash (before ++ byte' :: after) ↔
      byte = byte' := by
  refine ⟨fun h => ?_, fun h => by rw [h]⟩
  simp only [stablePathHash, List.foldl_append, List.foldl_cons] at h
  generalize before.foldl _ _ = start at h
  -- What comes after keeps different hashes apart.
  have hafter : ∀ hash hash' : UInt64,
      after.foldl (fun hash byte => (hash ^^^ byte.toUInt64) * 1099511628211) hash =
        after.foldl (fun hash byte => (hash ^^^ byte.toUInt64) * 1099511628211) hash' →
      hash = hash' := by
    clear h
    induction after with
    | nil => exact fun _ _ h => h
    | cons next after ih =>
        intro hash hash' h
        exact UInt64.xor_left_inj next.toUInt64 |>.mp (hash_step_inj (ih _ _ h))
  exact UInt8.toUInt64_inj.mp (UInt64.xor_right_inj start |>.mp (hash_step_inj (hafter _ _ h)))

/-- The digest of a hash is its numeral of 16 digits. -/
theorem hex_digest_eq (hash : UInt64) : hexDigest hash = Hexadecimal.padded 16 hash.toNat :=
  rfl

theorem length_hex_digest (hash : UInt64) : (hexDigest hash).length = 16 := by
  rw [hex_digest_eq]
  exact Hexadecimal.length_padded (by decide) hash.toNat_lt

theorem value_hex_digest (hash : UInt64) : Hexadecimal.value (hexDigest hash) = hash.toNat := by
  rw [hex_digest_eq, Hexadecimal.value_padded]

theorem hex_digest_inj {hash hash' : UInt64} :
    hexDigest hash = hexDigest hash' ↔ hash = hash' := by
  refine ⟨fun h => UInt64.toNat_inj.mp ?_, fun h => by rw [h]⟩
  rw [← value_hex_digest, h, value_hex_digest]

/-! ## The name -/

/-- The byte is an ASCII letter, an ASCII digit, `-` or `_`. -/
def isArtifactByte (byte : Byte) : Bool :=
  (Char.ofNat byte.toNat).isAlphanum || byte = 45 || byte = 95

theorem keeps_in_artifact_name_eq (byte : Byte) :
    keepsInArtifactName byte = isArtifactByte byte := by
  have hall : ∀ n : Fin 256,
      keepsInArtifactName (UInt8.ofNat n) = isArtifactByte (UInt8.ofNat n) := by
    decide +kernel
  have hbyte := hall ⟨byte.toNat, byte.toNat_lt⟩
  rwa [show UInt8.ofNat byte.toNat = byte from UInt8.ofNat_toNat] at hbyte

theorem artifact_byte_of_mem_sanitized {path : Bytes} {byte : Byte}
    (h : byte ∈ sanitizeArtifactName path) : isArtifactByte byte = true := by
  simp only [sanitizeArtifactName] at h
  split at h
  · have htest : (lit "test").all isArtifactByte = true := by decide
    exact List.all_eq_true.mp htest byte h
  · obtain ⟨original, -, rfl⟩ := List.mem_map.mp h
    split
    · rename_i hkeep
      rwa [keeps_in_artifact_name_eq] at hkeep
    · rfl

theorem sanitize_artifact_name_ne_nil (path : Bytes) : sanitizeArtifactName path ≠ [] := by
  simp only [sanitizeArtifactName]
  split
  · decide
  · rename_i hne
    exact hne

/-- Separators that follow each other are one. -/
example : sanitizeArtifactName (lit "dir//sub/a b.c") = lit "dir_sub_a_b_c" := by
  decide

/-- The relative path of a source, or its file name if it has none. -/
def relativeName (relative : Option Bytes) (source : Bytes) : Bytes :=
  relative.getD (Path.filename source)

/-- What is hashed for a source. -/
def hashInput (relative : Option Bytes) (source : Bytes) : Bytes :=
  Path.genericString (relativeName relative source)

/-- The name of the binary of a path. -/
def artifactName (path : Bytes) : Bytes :=
  sanitizeArtifactName (Path.dropExtension path) ++ lit "_" ++
    hexDigest (stablePathHash (Path.genericString path))

variable (options : AnalyzerOptions)

theorem make_test_output_path_eq (relative : Option Bytes) (source : Bytes) :
    makeTestOutputPath relative options source =
      Path.append options.outputDirectory (artifactName (relativeName relative source)) :=
  rfl

/-- The hash that ends the path of a binary. -/
def artifactHash (path : Bytes) : Nat :=
  Hexadecimal.value (path.drop (path.length - 16))

/-- A name of letters, digits, `-` and `_` that ends with `_` and the 16 digits of a hash. -/
structure NamesHash (hash : UInt64) (name : Bytes) : Prop where
  bytes : ∀ byte ∈ name, isArtifactByte byte = true
  ends : ∃ stem digits : Bytes, stem ≠ [] ∧ name = stem ++ lit "_" ++ digits ∧
    digits.length = 16 ∧ (∀ byte ∈ digits, Hexadecimal.isDigit byte = true) ∧
    Hexadecimal.value digits = hash.toNat

theorem artifact_byte_of_is_digit {byte : Byte} (h : Hexadecimal.isDigit byte = true) :
    isArtifactByte byte = true := by
  rw [← keeps_in_artifact_name_eq]
  simp only [Hexadecimal.isDigit, keepsInArtifactName, Bool.or_eq_true, Bool.and_eq_true,
    decide_eq_true_eq, UInt8.le_iff_toNat_le, UInt8.reduceToNat] at h ⊢
  omega

theorem artifact_name_names_hash (path : Bytes) :
    NamesHash (stablePathHash (Path.genericString path)) (artifactName path) where
  bytes byte h := by
    rw [artifactName, List.mem_append, List.mem_append] at h
    rcases h with (hstem | hsep) | hdigit
    · exact artifact_byte_of_mem_sanitized hstem
    · rw [show lit "_" = [95] from rfl, List.mem_singleton] at hsep
      rw [hsep]
      rfl
    · exact artifact_byte_of_is_digit (Hexadecimal.is_digit_of_mem_padded hdigit)
  ends :=
    ⟨_, _, sanitize_artifact_name_ne_nil _, rfl, length_hex_digest _,
      fun _ h => Hexadecimal.is_digit_of_mem_padded h, value_hex_digest _⟩

theorem slash_not_mem_artifact_name (path : Bytes) : slash ∉ artifactName path := by
  intro h
  have hslash := (artifact_name_names_hash path).bytes slash h
  revert hslash
  decide

theorem starts_with_artifact_name (path : Bytes) :
    startsWith (artifactName path) [slash] = false :=
  Path.starts_with_slash_eq_false (slash_not_mem_artifact_name path)

/-! ## The place of a binary -/

/-- The path is an entry of the directory whose name ends with the hash. -/
structure ArtifactIn (directory : Bytes) (hash : UInt64) (path : Bytes) : Prop where
  entry : ∃ name, path = directory ++ [slash] ++ name ∧ NamesHash hash name
  parent : Path.parentPath path = directory
  recovered : artifactHash path = hash.toNat

/-- The last 16 bytes of a path that ends with an artifact's name are the digits of its hash. -/
theorem artifact_hash_append (before path : Bytes) :
    artifactHash (before ++ artifactName path) =
      (stablePathHash (Path.genericString path)).toNat := by
  have hdigits : before ++ artifactName path =
      (before ++ sanitizeArtifactName (Path.dropExtension path) ++ lit "_") ++
        hexDigest (stablePathHash (Path.genericString path)) := by
    simp only [artifactName, List.append_assoc]
  have hlength := length_hex_digest (stablePathHash (Path.genericString path))
  rw [artifactHash, hdigits, List.drop_left' (by simp only [List.length_append]; omega),
    value_hex_digest]

variable {options}

theorem make_test_output_path_inside (hne : options.outputDirectory ≠ [])
    (hsep : endsWith options.outputDirectory [slash] = false) (relative : Option Bytes)
    (source : Bytes) :
    ArtifactIn options.outputDirectory (stablePathHash (hashInput relative source))
      (makeTestOutputPath relative options source) := by
  have hpath : makeTestOutputPath relative options source =
      options.outputDirectory ++ [slash] ++ artifactName (relativeName relative source) := by
    rw [make_test_output_path_eq, Path.append_of_relative _ (starts_with_artifact_name _),
      if_neg (by simp [hne, hsep])]
  refine ⟨⟨_, hpath, artifact_name_names_hash _⟩, ?_, ?_⟩
  · rw [hpath, List.append_assoc]
    exact Path.parent_path_append_slash hne hsep (slash_not_mem_artifact_name _)
  · rw [hpath]
    exact artifact_hash_append _ _

theorem output_path_of_test (tools : BatchTools) (options : AnalyzerOptions) (source : Bytes) :
    (testOptions tools options source).outputPath =
      makeTestOutputPath (tools.relative source) options source := by
  rw [testOptions]

/-- The paths that a batch removes, each before the run of a source. -/
def removedArtifacts (tools : BatchTools) (options : AnalyzerOptions) : List Bytes :=
  if Reached tools options then
    (discoverSourceFiles tools options.testDirectories).1.map fun source =>
      (testOptions tools options source).outputPath
  else []

/-- Whatever the paths of the sources, a batch places and removes its binaries directly in the
output directory, each under a name that gives the hash of the path back. -/
theorem artifacts_stay_inside (tools : BatchTools) (options : AnalyzerOptions)
    (hne : options.outputDirectory ≠ [])
    (hsep : endsWith options.outputDirectory [slash] = false) :
    (∀ relative source,
        ArtifactIn options.outputDirectory (stablePathHash (hashInput relative source))
          (makeTestOutputPath relative options source)) ∧
      ∀ path ∈ removedArtifacts tools options,
        ∃ hash, ArtifactIn options.outputDirectory hash path := by
  refine ⟨make_test_output_path_inside hne hsep, fun path hmem => ?_⟩
  rw [removedArtifacts] at hmem
  split at hmem
  · obtain ⟨source, -, rfl⟩ := List.mem_map.mp hmem
    rw [output_path_of_test]
    exact ⟨_, make_test_output_path_inside hne hsep (tools.relative source) source⟩
  · cases hmem

/-- The binary of a source above the working directory. -/
theorem artifacts_stay_inside_source_above :
    ArtifactIn (lit "out") (stablePathHash (lit "../tests/main.c"))
      (makeTestOutputPath (some (lit "../tests/main.c")) { outputDirectory := lit "out" }
        (lit "/work/tests/main.c")) :=
  (artifacts_stay_inside oneSource { outputDirectory := lit "out" } (by decide) (by decide)).1
    (some (lit "../tests/main.c")) (lit "/work/tests/main.c")

/-! ## Sources that share a binary -/

theorem artifact_name_eq_iff (path path' : Bytes) :
    artifactName path = artifactName path' ↔
      sanitizeArtifactName (Path.dropExtension path) =
          sanitizeArtifactName (Path.dropExtension path') ∧
        stablePathHash (Path.genericString path) = stablePathHash (Path.genericString path') := by
  constructor
  · intro h
    obtain ⟨hname, hdigest⟩ := List.append_inj' h (by simp only [length_hex_digest])
    exact ⟨List.append_cancel_right hname, hex_digest_inj.mp hdigest⟩
  · rintro ⟨hname, hhash⟩
    rw [artifactName, hname, hhash, artifactName]

theorem make_test_output_path_eq_iff (relative relative' : Option Bytes)
    (source source' : Bytes) :
    makeTestOutputPath relative options source = makeTestOutputPath relative' options source' ↔
      artifactName (relativeName relative source) =
        artifactName (relativeName relative' source') := by
  rw [make_test_output_path_eq, make_test_output_path_eq,
    Path.append_of_relative _ (starts_with_artifact_name _),
    Path.append_of_relative _ (starts_with_artifact_name _), List.append_cancel_left_eq]

/-- Two sources share a binary exactly when their relative paths, whatever they are, look alike once
sanitized and have hashes that collide; relative paths that differ in a single byte do not. -/
theorem artifacts_equal_iff (options : AnalyzerOptions) (relative relative' : Option Bytes)
    (source source' : Bytes) :
    (makeTestOutputPath relative options source = makeTestOutputPath relative' options source' ↔
      sanitizeArtifactName (Path.dropExtension (relativeName relative source)) =
          sanitizeArtifactName (Path.dropExtension (relativeName relative' source')) ∧
        stablePathHash (hashInput relative source) =
          stablePathHash (hashInput relative' source')) ∧
      ∀ (before after : Bytes) (byte byte' : Byte), byte ≠ byte' →
        hashInput relative source = before ++ byte :: after →
        hashInput relative' source' = before ++ byte' :: after →
          makeTestOutputPath relative options source ≠
            makeTestOutputPath relative' options source' := by
  have hequal := (@make_test_output_path_eq_iff options relative relative' source source').trans
    (artifact_name_eq_iff _ _)
  refine ⟨hequal, fun before after byte byte' hne hinput hinput' hsame => hne ?_⟩
  obtain ⟨-, hhash⟩ := hequal.mp hsame
  refine (stable_path_hash_single_iff before after byte byte').mp ?_
  rw [← hinput, ← hinput']
  exact hhash

/-- Two sources of one directory whose names differ in a letter have two binaries. -/
theorem artifacts_equal_single_byte :
    makeTestOutputPath (some (lit "dir/a.c")) { outputDirectory := lit "out" } (lit "dir/a.c") ≠
      makeTestOutputPath (some (lit "dir/b.c")) { outputDirectory := lit "out" } (lit "dir/b.c") :=
  (artifacts_equal_iff { outputDirectory := lit "out" } (some (lit "dir/a.c"))
    (some (lit "dir/b.c")) (lit "dir/a.c") (lit "dir/b.c")).2 (lit "dir/") (lit ".c") 97 98
    (by decide) (by decide) (by decide)

/-- Two sources of the working directory whose names are all punctuation, with one binary. -/
theorem same_artifact :
    ∃ (options : AnalyzerOptions) (path path' : Bytes), path ≠ path' ∧
      makeTestOutputPath (some path) options path = makeTestOutputPath (some path') options path' :=
  ⟨{ outputDirectory := lit "out" }, lit "@+:&[:)~]&,!+)^,.c", lit "!@^+]@^+^![$+@~~.c",
    by decide +kernel, by decide +kernel⟩

end RuntimeAnalyzer
