/-
Making an authority: what becomes of files that are there before.

Until something is written only the place of the key is looked at, and the
certificate is written after the key.  So a key that is there stays as it is,
and an authority that cannot be made leaves nothing.  But a certificate that
has no key beside it is written over, and where a directory has the name of
the certificate the key is left alone; and these are the only ways in which
anything is lost or left over (`init_leaves`).
-/
import Enrollment.Command.Init
import Enrollment.Proofs.Authority.Signer
import Enrollment.Proofs.Command.Job

namespace Enrollment.Command

-- ================================================================= places

theorem isPlain_authorityKeyName : Path.IsPlain authorityKeyName :=
  ⟨List.forall_mem_ne'.2 (by decide), by decide, by decide, by decide⟩

theorem isPlain_authorityCertificateName : Path.IsPlain authorityCertificateName :=
  ⟨List.forall_mem_ne'.2 (by decide), by decide, by decide, by decide⟩

/-- The places of the two files in a directory. -/
def keyPlace (directory : List String) : List String := directory ++ [authorityKeyName]

def certificatePlace (directory : List String) : List String :=
  directory ++ [authorityCertificateName]

def authorityPlaces (directory : List String) : List (List String) :=
  [certificatePlace directory, keyPlace directory]

theorem certificatePlace_ne_keyPlace (directory : List String) :
    certificatePlace directory ≠ keyPlace directory := fun h =>
  absurd (List.singleton_inj.1 (List.append_cancel_left h)) (by decide)

/-- A path leads to a directory. -/
structure Opens (t : FileTree) (path : String) (directory : List String) : Prop where
  located : t.locate path = .ok directory
  stands : t.node? directory = some .directory

variable {t t' : FileTree} {path : String} {directory : List String}

namespace Opens

theorem locate_key (h : Opens t path directory) :
    t.locate (Path.join path authorityKeyName) = .ok (keyPlace directory) := by
  rw [FileTree.locate_join h.located h.stands isPlain_authorityKeyName, if_neg (by decide)]
  rfl

theorem locate_certificate (h : Opens t path directory) :
    t.locate (Path.join path authorityCertificateName) = .ok (certificatePlace directory) := by
  rw [FileTree.locate_join h.located h.stands isPlain_authorityCertificateName,
    if_neg (by decide)]
  rfl

/-- A key is there if something has its name, be it a file or not. -/
theorem has_key (h : Opens t path directory) :
    t.has (Path.join path authorityKeyName) = (t.node? (keyPlace directory)).isSome := by
  rw [FileTree.has, h.locate_key]

/-- A path leads to the same directory as long as directories stay. -/
theorem of_keeps (h : Opens t path directory) (hkeeps : t.KeepsDirectories t') :
    Opens t' path directory :=
  ⟨FileTree.locate_of_keeps hkeeps h.located, hkeeps _ h.stands⟩

/-- A directory that is there is not made. -/
theorem createDirectories (h : Opens t path directory) :
    t.createDirectories path = (.ok (), t) :=
  FileTree.createDirectories_of_located h.located h.stands

end Opens

-- ================================================================= making

section

variable [Signatures] (o : CommandLine.InitOptions) (now : Time.Instant) (draw : Authority.Draw)

/-- An authority is made of the options. -/
def Makes (a : Authority) : Prop :=
  Authority.generate o.hostname o.algorithm o.days now draw = .ok a

/-- What is done once the directory is there. -/
def fill : Job Unit := do
  let certificatePath := Path.join o.outDir authorityCertificateName
  let keyPath := Path.join o.outDir authorityKeyName
  if (← get).files.has keyPath then Job.fail (.keepFile keyPath) .itself
  let a ← Job.expectOrCrash .generateAuthority
    (Authority.generate o.hostname o.algorithm o.days now draw)
  Job.writePrivate keyPath a.keyPem
  Job.write certificatePath a.chain.pem

theorem init_eq : init o now draw = Job.createDirectories o.outDir >>= fun _ => fill o now draw :=
  rfl

/-- How it ends, where the directory is there. -/
inductive Ending (t : FileTree) (directory : List String) : Except Stop Unit → FileTree → Prop
  | keyThere {stop : Stop} (h : t.node? (keyPlace directory) ≠ none) :
      Ending t directory (.error stop) t
  | notMade {stop : Stop} (h : ∀ a, ¬Makes o now draw a) : Ending t directory (.error stop) t
  | half {stop : Stop} {a : Authority} {t' : FileTree}
      (hkey : t.node? (keyPlace directory) = none) (hmakes : Makes o now draw a)
      (hcertificate : t.node? (certificatePlace directory) = some .directory)
      (hwrites : t.Writes t' (keyPlace directory) (Utf8.encode a.keyPem) FileTree.privateMode) :
      Ending t directory (.error stop) t'
  | whole {a : Authority} {t' t'' : FileTree} {mode : Nat}
      (hkey : t.node? (keyPlace directory) = none) (hmakes : Makes o now draw a)
      (hcertificate : t.node? (certificatePlace directory) ≠ some .directory)
      (hwrites : t.Writes t' (keyPlace directory) (Utf8.encode a.keyPem) FileTree.privateMode)
      (hwrites' : t'.Writes t'' (certificatePlace directory) (Utf8.encode a.chain.pem) mode) :
      Ending t directory (.ok ()) t''

variable {o now draw}

/-- The two files of an authority are written one after the other. -/
theorem runOn_write_both {a : Authority} {m : Machine} (hopens : Opens m.files o.outDir directory)
    (hkey : m.files.node? (keyPlace directory) = none) (hmakes : Makes o now draw a) :
    ∃ result files, (Job.writePrivate (Path.join o.outDir authorityKeyName) a.keyPem >>= fun _ =>
        Job.write (Path.join o.outDir authorityCertificateName) a.chain.pem).runOn m
      = (result, { m with files }) ∧ Ending o now draw m.files directory result files := by
  rcases Job.runOn_writePrivate (Path.join o.outDir authorityKeyName) a.keyPem m with
    ⟨stop, -, hfault⟩ | ⟨place, files, hplace, hwrites, hrun⟩
  · have hstands := hfault _ hopens.locate_key
    rw [hkey] at hstands
    cases hstands
  · cases hopens.locate_key.symm.trans hplace
    have hopens' := hopens.of_keeps hwrites.keepsDirectories
    have hother := hwrites.others _ (certificatePlace_ne_keyPlace directory)
    rcases Job.runOn_write (Path.join o.outDir authorityCertificateName) a.chain.pem
      { m with files } with ⟨stop, hrun', hfault⟩ | ⟨place, mode, files', hplace', hwrites', hrun'⟩
    · have hstands := hfault _ hopens'.locate_certificate
      exact ⟨_, _, (Job.runOn_bind_of_ok hrun).trans hrun',
        .half hkey hmakes (hother ▸ hstands) hwrites⟩
    · cases hopens'.locate_certificate.symm.trans hplace'
      exact ⟨_, _, (Job.runOn_bind_of_ok hrun).trans hrun',
        .whole hkey hmakes (hother ▸ hwrites'.free) hwrites hwrites'⟩

/-- What is done in a directory ends in one of these ways. -/
theorem runOn_fill (o : CommandLine.InitOptions) (now : Time.Instant) (draw : Authority.Draw)
    {m : Machine} (hopens : Opens m.files o.outDir directory) :
    ∃ result files, (fill o now draw).runOn m = (result, { m with files })
      ∧ Ending o now draw m.files directory result files := by
  unfold fill
  rw [Job.runOn_bind_of_ok (Job.runOn_get m)]
  dsimp only
  rw [hopens.has_key]
  cases hkey : m.files.node? (keyPlace directory) with
  | some node =>
    rw [Option.isSome_some, if_pos rfl]
    exact ⟨_, _, rfl, .keyThere (by rw [hkey]; exact nofun)⟩
  | none =>
    rw [Option.isSome_none, if_neg Bool.false_ne_true]
    cases hgenerate : Authority.generate o.hostname o.algorithm o.days now draw with
    | error halt =>
      obtain ⟨stop, hstop⟩ := Job.runOn_expectOrCrash_error (α := Authority) .generateAuthority
        halt m
      refine ⟨_, _, Job.runOn_bind_of_error hstop, .notMade fun a hmakes => ?_⟩
      cases hgenerate.symm.trans hmakes
    | ok a =>
      rw [Job.runOn_bind_of_ok (Job.runOn_expectOrCrash_ok _ _ _)]
      exact runOn_write_both hopens hkey hgenerate

-- ================================================================ sparing

/-- No file of the two has other contents than before, and after a failure both
places are as they were. -/
structure Spares (directory : List String) (t : FileTree) (result : Except Stop Unit)
    (t' : FileTree) : Prop where
  kept : ∀ place ∈ authorityPlaces directory, ∀ contents mode,
    t.node? place = some (.file contents mode) →
      ∃ mode', t'.node? place = some (.file contents mode')
  undone : ∀ stop, result = .error stop →
    ∀ place ∈ authorityPlaces directory, t'.node? place = t.node? place

variable (o now draw)

/-- An authority is made, and no key but something else than its certificate has the
name of the certificate. -/
def Exposed (t : FileTree) (directory : List String) : Prop :=
  ∃ a node, Makes o now draw a ∧ t.node? (keyPlace directory) = none
    ∧ t.node? (certificatePlace directory) = some node
    ∧ ∀ mode, node ≠ .file (Utf8.encode a.chain.pem) mode

/-- An authority is made, there is no key, and no directory has the name of the
certificate. -/
def HasPlace (t : FileTree) (directory : List String) : Prop :=
  ∃ a, Makes o now draw a ∧ t.node? (keyPlace directory) = none
    ∧ t.node? (certificatePlace directory) ≠ some .directory

/-- What is left in a directory that is there. -/
structure Leaves (t : FileTree) (directory : List String) (result : Except Stop Unit)
    (t' : FileTree) : Prop where
  others : ∀ place, place ∉ authorityPlaces directory → t'.node? place = t.node? place
  succeeds : result = .ok () ↔ HasPlace o now draw t directory
  /-- The key of an authority that is made is left where none was. -/
  key : ∀ a, Makes o now draw a → t.node? (keyPlace directory) = none →
    t'.node? (keyPlace directory) = some (.file (Utf8.encode a.keyPem) FileTree.privateMode)
  certificate : result = .ok () → ∀ a, Makes o now draw a →
    ∃ mode, t'.node? (certificatePlace directory) = some (.file (Utf8.encode a.chain.pem) mode)
  spares : Spares directory t result t' ↔ ¬Exposed o now draw t directory

variable {o now draw} {result : Except Stop Unit}

/-- There is no more than one authority that is made. -/
theorem Makes.unique {a b : Authority} (h : Makes o now draw a) (h' : Makes o now draw b) :
    b = a := by
  cases h.symm.trans h'
  rfl

omit [Signatures] in
theorem ne_of_not_mem_places {place : List String} (h : place ∉ authorityPlaces directory) :
    place ≠ certificatePlace directory ∧ place ≠ keyPlace directory := by
  rw [authorityPlaces, List.mem_cons, List.mem_singleton, not_or] at h
  exact h

/-- Where there is a key or none is made, everything is left as it is. -/
theorem leaves_unchanged (hkey : ∀ a, Makes o now draw a → t.node? (keyPlace directory) ≠ none)
    (stop : Stop) : Leaves o now draw t directory (.error stop) t where
  others _ _ := rfl
  succeeds := ⟨fun hok => (nomatch hok), fun ⟨a, hmakes, hnone, _⟩ => absurd hnone (hkey a hmakes)⟩
  key a hmakes hnone := absurd hnone (hkey a hmakes)
  certificate hok := nomatch hok
  spares := by
    refine ⟨fun _ => ?_, fun _ => ⟨fun _ _ _ mode hnode => ⟨mode, hnode⟩, fun _ _ _ _ => rfl⟩⟩
    rintro ⟨a, node, hmakes, hnone, -⟩
    exact hkey a hmakes hnone

/-- Where a directory has the name of the certificate, the key is left alone. -/
theorem leaves_half {a : Authority} (hkey : t.node? (keyPlace directory) = none)
    (hmakes : Makes o now draw a)
    (hcertificate : t.node? (certificatePlace directory) = some .directory)
    (hwrites : t.Writes t' (keyPlace directory) (Utf8.encode a.keyPem) FileTree.privateMode)
    (stop : Stop) : Leaves o now draw t directory (.error stop) t' where
  others _ hplace := hwrites.others _ (ne_of_not_mem_places hplace).2
  succeeds := ⟨fun hok => (nomatch hok), fun ⟨_, _, _, hfree⟩ => absurd hcertificate hfree⟩
  key b hb _ := by
    obtain rfl := hmakes.unique hb
    exact hwrites.written
  certificate hok := nomatch hok
  spares := by
    constructor
    · intro hspares
      have hundone := hspares.undone stop rfl (keyPlace directory) (by simp [authorityPlaces])
      rw [hwrites.written, hkey] at hundone
      cases hundone
    · intro hexposed
      exact absurd ⟨a, .directory, hmakes, hkey, hcertificate, nofun⟩ hexposed

/-- With both files written, contents are lost exactly if others had the name of the
certificate. -/
theorem spares_whole_iff {a : Authority} {mode : Nat}
    (hkey : t.node? (keyPlace directory) = none) (hmakes : Makes o now draw a)
    (hcertificate : t.node? (certificatePlace directory) ≠ some .directory)
    (hwritten : t'.node? (certificatePlace directory)
      = some (.file (Utf8.encode a.chain.pem) mode)) :
    Spares directory t (.ok ()) t' ↔ ¬Exposed o now draw t directory := by
  constructor
  · rintro hspares ⟨b, node, hb, -, hnode, hother⟩
    obtain rfl := hmakes.unique hb
    -- what stands there is a file, and it has the contents of the certificate now
    cases node with
    | directory => exact hcertificate hnode
    | file contents mode' =>
      obtain ⟨_, hkept⟩ := hspares.kept _ (by simp [authorityPlaces]) contents mode' hnode
      cases hwritten.symm.trans hkept
      exact hother mode' rfl
  · intro hexposed
    refine ⟨fun place hplace contents mode' hnode => ?_, fun _ hstop => nomatch hstop⟩
    rw [authorityPlaces, List.mem_cons, List.mem_singleton] at hplace
    rcases hplace with rfl | rfl
    · by_cases hsame : contents = Utf8.encode a.chain.pem
      · exact ⟨mode, hsame ▸ hwritten⟩
      · refine absurd ⟨a, _, hmakes, hkey, hnode, fun mode hfile => hsame ?_⟩ hexposed
        cases hfile
        rfl
    · rw [hkey] at hnode
      cases hnode

/-- Both files are left where both were written. -/
theorem leaves_whole {a : Authority} {u : FileTree} {mode : Nat}
    (hkey : t.node? (keyPlace directory) = none) (hmakes : Makes o now draw a)
    (hcertificate : t.node? (certificatePlace directory) ≠ some .directory)
    (hwrites : t.Writes u (keyPlace directory) (Utf8.encode a.keyPem) FileTree.privateMode)
    (hwrites' : u.Writes t' (certificatePlace directory) (Utf8.encode a.chain.pem) mode) :
    Leaves o now draw t directory (.ok ()) t' where
  others _ hplace := by
    obtain ⟨hcertificatePlace, hkeyPlace⟩ := ne_of_not_mem_places hplace
    rw [hwrites'.others _ hcertificatePlace, hwrites.others _ hkeyPlace]
  succeeds := ⟨fun _ => ⟨a, hmakes, hkey, hcertificate⟩, fun _ => rfl⟩
  key b hb _ := by
    obtain rfl := hmakes.unique hb
    rw [hwrites'.others _ (certificatePlace_ne_keyPlace directory).symm, hwrites.written]
  certificate _ b hb := by
    obtain rfl := hmakes.unique hb
    exact ⟨mode, hwrites'.written⟩
  spares := spares_whole_iff hkey hmakes hcertificate hwrites'.written

/-- Each way to end leaves what is said of it. -/
theorem Ending.leaves (h : Ending o now draw t directory result t') :
    Leaves o now draw t directory result t' := by
  cases h with
  | keyThere hkey => exact leaves_unchanged (fun _ _ => hkey) _
  | notMade hnone => exact leaves_unchanged (fun a hmakes => absurd hmakes (hnone a)) _
  | half hkey hmakes hcertificate hwrites => exact leaves_half hkey hmakes hcertificate hwrites _
  | whole hkey hmakes hcertificate hwrites hwrites' =>
    exact leaves_whole hkey hmakes hcertificate hwrites hwrites'

/-- The directory is made first, or nothing but a part of the way to it. -/
theorem runOn_init (o : CommandLine.InitOptions) (now : Time.Instant) (draw : Authority.Draw)
    (m : Machine) :
    ∃ result t t', (init o now draw).runOn m = (result, { m with files := t' })
      ∧ (m.files.createDirectories o.outDir).2 = t ∧ m.files.Extends [] t
      ∧ (((m.files.createDirectories o.outDir).1 ≠ .ok () ∧ result ≠ .ok () ∧ t' = t)
        ∨ ∃ directory, Opens t o.outDir directory
          ∧ Leaves o now draw t directory result t') := by
  rw [init_eq]
  obtain ⟨t, rfl, hextends, ⟨stop, hrun, hfault⟩ | ⟨directory, hrun, hlocate, hstands⟩⟩ :=
    Job.runOn_createDirectories o.outDir m
  · exact ⟨_, _, _, Job.runOn_bind_of_error hrun, rfl, hextends, .inl ⟨hfault, nofun, rfl⟩⟩
  · obtain ⟨result, files, hfill, hending⟩ := runOn_fill o now draw
      (m := { m with files := (m.files.createDirectories o.outDir).2 }) ⟨hlocate, hstands⟩
    exact ⟨result, _, files, (Job.runOn_bind_of_ok hrun).trans hfill, rfl, hextends,
      .inr ⟨directory, ⟨hlocate, hstands⟩, hending.leaves⟩⟩

/-- Where the directory is there, it ends in one of these ways and changes only files. -/
theorem runOn_init_of_opens (o : CommandLine.InitOptions) (now : Time.Instant)
    (draw : Authority.Draw) {m : Machine} (hopens : Opens m.files o.outDir directory) :
    ∃ result files, (init o now draw).runOn m = (result, { m with files })
      ∧ Leaves o now draw m.files directory result files := by
  obtain ⟨result, t, t', hrun, rfl, -, hends⟩ := runOn_init o now draw m
  rw [hopens.createDirectories] at hends
  obtain ⟨hfault, -⟩ | ⟨place, hplace, hleaves⟩ := hends
  · exact absurd rfl hfault
  · cases hopens.located.symm.trans hplace.located
    exact ⟨result, t', hrun, hleaves⟩

/-- A key is never written over, and an authority that cannot be made leaves the two
places as they are, except where something else has the name of the certificate and no
key is beside it: a file is written over there, and for a directory the key is left
without its certificate. -/
theorem init_leaves (o : CommandLine.InitOptions) (now : Time.Instant) (draw : Authority.Draw)
    (m : Machine) :
    ∃ result t t', (init o now draw).runOn m = (result, { m with files := t' })
      ∧ (m.files.createDirectories o.outDir).2 = t ∧ m.files.Extends [] t
      ∧ (((m.files.createDirectories o.outDir).1 ≠ .ok () ∧ result ≠ .ok () ∧ t' = t)
        ∨ ∃ directory, Opens t o.outDir directory
          ∧ (∀ other, Opens m.files o.outDir other → other = directory ∧ t = m.files)
          ∧ Leaves o now draw t directory result t') := by
  obtain ⟨result, t, t', hrun, hmade, hextends, hends⟩ := runOn_init o now draw m
  refine ⟨result, t, t', hrun, hmade, hextends, hends.imp_right ?_⟩
  rintro ⟨directory, hopens, hleaves⟩
  refine ⟨directory, hopens, fun other hother => ?_, hleaves⟩
  rw [hother.createDirectories] at hmade
  subst hmade
  cases hother.located.symm.trans hopens.located
  exact ⟨rfl, rfl⟩

end

-- ============================================================ small samples

/-- The small authority, in a directory of its own. -/
def InitOptions.small : CommandLine.InitOptions where
  hostname := "h"
  days := 1
  algorithm := .ed25519
  outDir := "out"

theorem makes_small : Makes InitOptions.small ⟨0, 0⟩ ⟨[7], [1]⟩ .small :=
  Authority.generate_small

/-- A directory in which something has the name of the certificate, and nothing that of
the key. -/
def takenFiles (node : FileNode) : FileTree :=
  ⟨[(["out", "ca-cert.pem"], node), (["out"], .directory)]⟩

theorem opens_taken (node : FileNode) : Opens (takenFiles node) "out" ["out"] :=
  ⟨rfl, rfl⟩

theorem exposed_taken (node : FileNode)
    (h : ∀ mode, node ≠ .file (Utf8.encode Authority.small.chain.pem) mode) :
    Exposed InitOptions.small ⟨0, 0⟩ ⟨[7], [1]⟩ (takenFiles node) ["out"] :=
  ⟨.small, node, makes_small, rfl, rfl, h⟩

/-- No chain is read from the text `x`, so it is not that of a certificate. -/
theorem encode_pem_small_ne : Utf8.encode Authority.small.chain.pem ≠ [0x78] := by
  intro hsame
  have htext := congrArg Utf8.decode? hsame
  have hx : Utf8.decode? [0x78] = some "x" := by decide +kernel
  rw [Utf8.encode, Utf8.decode?_encodeChars, String.ofList_toList, hx] at htext
  have hread := Chain.ofPem_pem Authority.small.chain
  have hnone : Chain.ofPem "x" = .error (.protocol .emptyChain) := by decide +kernel
  rw [Option.some.inj htext, hnone] at hread
  cases hread

/-- A certificate without a key is written over, and beside a directory with its name
a key is left behind. -/
theorem taken_not_spared :
    (∃ t' contents mode, (init InitOptions.small ⟨0, 0⟩ ⟨[7], [1]⟩).runOn
          ⟨takenFiles (.file [0x78] 0o640), []⟩ = (.ok (), ⟨t', []⟩)
        ∧ t'.node? ["out", "ca-cert.pem"] = some (.file contents mode) ∧ contents ≠ [0x78]
        ∧ ¬Spares ["out"] (takenFiles (.file [0x78] 0o640)) (.ok ()) t')
      ∧ ∃ stop t', (init InitOptions.small ⟨0, 0⟩ ⟨[7], [1]⟩).runOn
          ⟨takenFiles .directory, []⟩ = (.error stop, ⟨t', []⟩)
        ∧ (takenFiles .directory).node? ["out", "ca-key.pem"] = none
        ∧ t'.node? ["out", "ca-key.pem"]
          = some (.file (Utf8.encode Authority.small.keyPem) FileTree.privateMode)
        ∧ ¬Spares ["out"] (takenFiles .directory) (.error stop) t' := by
  constructor
  · have hexposed := exposed_taken (.file [0x78] 0o640) fun mode hfile =>
      encode_pem_small_ne (FileNode.file.inj hfile).1.symm
    obtain ⟨result, t', hrun, hleaves⟩ :=
      runOn_init_of_opens InitOptions.small ⟨0, 0⟩ ⟨[7], [1]⟩
        (m := ⟨takenFiles (.file [0x78] 0o640), []⟩) (opens_taken _)
    have hplace : HasPlace InitOptions.small ⟨0, 0⟩ ⟨[7], [1]⟩ (takenFiles (.file [0x78] 0o640))
        ["out"] := ⟨.small, makes_small, rfl, by decide⟩
    obtain rfl := hleaves.succeeds.2 hplace
    obtain ⟨mode, hcertificate⟩ := hleaves.certificate rfl _ makes_small
    exact ⟨t', _, mode, hrun, hcertificate, encode_pem_small_ne,
      fun h => hleaves.spares.1 h hexposed⟩
  · have hexposed := exposed_taken .directory nofun
    obtain ⟨result, t', hrun, hleaves⟩ :=
      runOn_init_of_opens InitOptions.small ⟨0, 0⟩ ⟨[7], [1]⟩
        (m := ⟨takenFiles .directory, []⟩) (opens_taken _)
    cases result with
    | ok =>
      obtain ⟨a, -, -, hfree⟩ := hleaves.succeeds.1 rfl
      exact absurd rfl hfree
    | error stop =>
      exact ⟨stop, t', hrun, rfl, hleaves.key _ makes_small rfl,
        fun h => hleaves.spares.1 h hexposed⟩

end Enrollment.Command
