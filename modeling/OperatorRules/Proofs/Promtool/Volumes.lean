import OperatorRules.Proofs.Disk.Path
import OperatorRules.Proofs.Promtool.Container

/-!
# The files that a container gets

A container runtime parts a volume at its colons, whatever they stand for. The volumes of promtool
have the path of the host in front, so they mean what they should just if there is no colon in it
(`splitColon_volume_iff`). `Mounts` says that of all volumes of a command at once, and
`mounts_mountArguments_iff` when it holds.
-/

namespace OperatorRules

namespace Promtool

/-! ## Colons -/

theorem splitColon_eq_splitOn (cs : List Char) : splitColon cs = cs.splitOn ':' := by
  induction cs with
  | nil => rfl
  | cons c cs ih =>
    obtain ⟨part, parts, h⟩ := List.exists_cons_of_ne_nil (List.splitOn_ne_nil ':' cs)
    rw [splitColon, ih, List.splitOn_cons_eq_if_modifyHead, h]
    simp

theorem splitColon_append_colon (cs ds : List Char) :
    splitColon (cs ++ ':' :: ds) = splitColon cs ++ splitColon ds := by
  simp only [splitColon_eq_splitOn]
  exact List.splitOn_append_cons_self ..

theorem splitColon_eq_singleton_iff {cs : List Char} : splitColon cs = [cs] ↔ ':' ∉ cs := by
  constructor
  · intro h hcolon
    obtain ⟨before, after, rfl⟩ := List.append_of_mem hcolon
    have hlength := congrArg List.length h
    rw [splitColon_append_colon, List.length_append] at hlength
    have hne (cs : List Char) : 0 < (splitColon cs).length := by
      rw [splitColon_eq_splitOn]
      exact List.length_pos_of_ne_nil (List.splitOn_ne_nil ':' cs)
    have hbefore := hne before
    have hafter := hne after
    rw [List.length_singleton] at hlength
    omega
  · intro h
    rw [splitColon_eq_splitOn]
    exact List.splitOn_eq_singleton h

/-- The parts that a volume should have. -/
def volumeParts (host mount : String) : List (List Char) :=
  [host.toList, mount.toList, "ro,Z".toList]

theorem splitColon_volume (host : String) {mount : String} (hmount : ':' ∉ mount.toList) :
    splitColon (volume host mount).toList =
      splitColon host.toList ++ [mount.toList, "ro,Z".toList] := by
  have hvolume : (volume host mount).toList =
      host.toList ++ ':' :: (mount.toList ++ ':' :: mountOptions.toList) := by
    simp [volume]
  have hoptions : splitColon mountOptions.toList = ["ro,Z".toList] := by decide
  rw [hvolume, splitColon_append_colon, splitColon_append_colon,
    splitColon_eq_singleton_iff.2 hmount, hoptions, List.singleton_append]

theorem splitColon_volume_iff {host mount : String} (hmount : ':' ∉ mount.toList) :
    splitColon (volume host mount).toList = volumeParts host mount ↔ ':' ∉ host.toList := by
  rw [splitColon_volume host hmount, ← splitColon_eq_singleton_iff]
  constructor
  · intro h
    exact List.append_cancel_right (h.trans (List.singleton_append ..).symm)
  · intro h
    rw [h]
    rfl

/-! ## The volumes of a command -/

variable {pid : Nat} {stage : Stage} {image word : String} {rest : List String}
  {files : List (String × String)}

/-- The options for files, each given as its path on the host and where it is mounted. -/
def volumeOptions (files : List (String × String)) : List String :=
  files.flatMap fun (host, mount) => ["-v", volume host mount]

/-- The arguments of a run that gets files. -/
def mountArguments (pid : Nat) (stage : Stage) (files : List (String × String))
    (image word : String) (rest : List String) : List String :=
  runArguments pid stage ++ (volumeOptions files ++ image :: word :: rest)

theorem checkArguments_eq (pid : Nat) (image rules : String) :
    checkArguments pid image rules =
      mountArguments pid .lint [(rules, rulesMount)] image "check" ["rules", rulesMount] := rfl

theorem testArguments_eq (pid : Nat) (image rules tests : String) :
    testArguments pid image rules tests =
      mountArguments pid .unitTest [(tests, testsMount), (rules, rulesMount)] image "test"
        ["rules", testsMount] := rfl

theorem volumes_cons {a : String} (h : a ≠ "-v") (args : List String) :
    volumes (a :: args) = volumes args := by
  rw [volumes]
  exact fun _ _ ha => absurd ha h

theorem volumes_eq_nil {args : List String} (h : ∀ a ∈ args, a ≠ "-v") : volumes args = [] := by
  induction args with
  | nil => rfl
  | cons a args ih =>
    rw [volumes_cons (h a (List.mem_cons_self ..))]
    exact ih fun b hb => h b (List.mem_cons_of_mem _ hb)

theorem volumes_runArguments_append (pid : Nat) (stage : Stage) (args : List String) :
    volumes (runArguments pid stage ++ args) = volumes args := by
  have hname : nameOption ++ containerName pid stage ≠ "-v" := by
    intro h
    have hsecond := congrArg (fun a : String => a.toList[1]?) h
    simp [nameOption] at hsecond
  simp only [runArguments, List.cons_append, List.nil_append]
  rw [volumes_cons (by decide), volumes_cons (by decide), volumes_cons hname,
    volumes_cons (by decide)]

theorem volumes_volumeOptions_append (files : List (String × String)) (args : List String) :
    volumes (volumeOptions files ++ args) =
      files.map (fun f => volume f.1 f.2) ++ volumes args := by
  induction files with
  | nil => rfl
  | cons f files ih => exact congrArg (volume f.1 f.2 :: ·) ih

/-- An image that looks like the option takes the first word of promtool for a volume. -/
theorem volumes_mountArguments (hrest : ∀ a ∈ word :: rest, a ≠ "-v") :
    volumes (mountArguments pid stage files image word rest) =
      files.map (fun f => volume f.1 f.2) ++ if image = "-v" then [word] else [] := by
  rw [mountArguments, volumes_runArguments_append, volumes_volumeOptions_append]
  split
  · next h =>
    subst h
    rw [volumes, volumes_eq_nil fun a ha => hrest a (List.mem_cons_of_mem _ ha)]
  · next h => rw [volumes_cons h, volumes_eq_nil hrest]

/-- The volumes of the arguments are those of the files, each with the parts that it should have. -/
def Mounts (args : List String) (files : List (String × String)) : Prop :=
  (volumes args).map (fun v => splitColon v.toList) = files.map fun f => volumeParts f.1 f.2

instance (args : List String) (files : List (String × String)) : Decidable (Mounts args files) :=
  inferInstanceAs (Decidable (_ = _))

theorem mounts_mountArguments_iff (hrest : ∀ a ∈ word :: rest, a ≠ "-v")
    (hmounts : ∀ f ∈ files, ':' ∉ f.2.toList) :
    Mounts (mountArguments pid stage files image word rest) files ↔
      (∀ f ∈ files, ':' ∉ f.1.toList) ∧ image ≠ "-v" := by
  have hfiles : (files.map (fun f => volume f.1 f.2)).map (fun v => splitColon v.toList) =
      (files.map fun f => volumeParts f.1 f.2) ↔ ∀ f ∈ files, ':' ∉ f.1.toList := by
    rw [List.map_map, List.map_inj_left]
    exact forall₂_congr fun f hf => splitColon_volume_iff (hmounts f hf)
  rw [Mounts, volumes_mountArguments hrest]
  by_cases h : image = "-v"
  · refine iff_of_false (fun heq => ?_) fun hno => hno.2 h
    simpa [h] using congrArg List.length heq
  · rw [if_neg h, List.append_nil, hfiles]
    exact (and_iff_left h).symm

/-! ## Paths on the host -/

/-- A path as seen from the root, when the current directory is `base`. -/
def hostPath (base : List Char) (path : String) : String :=
  if Path.isAbsolute path.toList then path else String.ofList (Path.join base path.toList)

theorem absolute_ok (base : List Char) (path : String) :
    absolute (.ok base) path = .ok (hostPath base path) := by
  unfold absolute hostPath
  split <;> rfl

theorem isAbsolute_hostPath {base : List Char} (hbase : Path.isAbsolute base = true)
    (path : String) : Path.isAbsolute (hostPath base path).toList = true := by
  by_cases h : Path.isAbsolute path.toList
  · rwa [hostPath, if_pos h]
  · obtain ⟨after, hafter⟩ := Path.exists_join_eq_of_relative base (Bool.eq_false_iff.2 h)
    obtain ⟨c, base, rfl⟩ := List.exists_cons_of_ne_nil (l := base) (by rintro rfl; cases hbase)
    rw [hostPath, if_neg h, String.toList_ofList, hafter]
    exact hbase

end Promtool

namespace ContainerPromtool

open Promtool

/-- The actions of an engine are one run of the runtime, which mounts these files, each from a path
that starts at the root. The volumes have the parts that they should have just if no path has a
colon and the image is not the option itself. That is for paths that are texts: a path that is not
UTF-8 is replaced by what is shown of it, so its volume fails with or without a colon. -/
structure HandsOver (p : ContainerPromtool) (l : List EngineAction)
    (files : List (String × String)) (args : List String) : Prop where
  runs_eq : runs (l.filterMap EngineAction.command?) = [(p.ociBin, args)]
  volumes_eq (h : p.image ≠ "-v") : volumes args = files.map fun f => volume f.1 f.2
  isAbsolute : ∀ f ∈ files, Path.isAbsolute f.1.toList
  mounts_iff : Mounts args files ↔ (∀ f ∈ files, ':' ∉ f.1.toList) ∧ p.image ≠ "-v"

theorem handsOver_run {p : ContainerPromtool} {stage : Stage} {files : List (String × String)}
    {word : String} {rest : List String} (runtime : ContainerRuntime) (d : Disk)
    (hrest : ∀ a ∈ word :: rest, a ≠ "-v")
    (hfiles : ∀ f ∈ files, Path.isAbsolute f.1.toList = true ∧ ':' ∉ f.2.toList) :
    p.HandsOver
      (p.run runtime stage (mountArguments p.pid stage files p.image word rest) d).trace files
      (mountArguments p.pid stage files p.image word rest) where
  runs_eq := by
    rw [run_commands]
    exact p.runs_runCommands stage (startedName?_runArguments ..) _
  volumes_eq h := by rw [volumes_mountArguments hrest, if_neg h, List.append_nil]
  isAbsolute f hf := (hfiles f hf).1
  mounts_iff := mounts_mountArguments_iff hrest fun f hf => (hfiles f hf).2

/-- Both calls mount the rule file from the same path to the same place, and the volumes of either
call have the parts that they should have just if there is no colon in the paths on the host. -/
theorem check_test_handsOver (p : ContainerPromtool) (runtime : ContainerRuntime) {base : List Char}
    (hbase : Path.isAbsolute base = true) (d : Disk) (rules tests : String) :
    p.HandsOver (p.check runtime (.ok base) d rules).trace [(hostPath base rules, rulesMount)]
        (p.checkArguments (hostPath base rules)) ∧
      p.HandsOver (p.test runtime (.ok base) d rules tests).trace
        [(hostPath base tests, testsMount), (hostPath base rules, rulesMount)]
        (p.testArguments (hostPath base rules) (hostPath base tests)) := by
  have habsolute := isAbsolute_hostPath hbase
  have hrulesMount : ':' ∉ rulesMount.toList := by decide
  have htestsMount : ':' ∉ testsMount.toList := by decide
  constructor
  · rw [check_of_ok (absolute_ok ..), checkArguments, checkArguments_eq]
    refine handsOver_run runtime d (by decide) ?_
    simp [habsolute, hrulesMount]
  · rw [test_of_ok (absolute_ok ..) (absolute_ok ..), testArguments, testArguments_eq]
    refine handsOver_run runtime d (by decide) ?_
    simp [habsolute, hrulesMount, htestsMount]

/-- Rules below the current directory and tests elsewhere: all volumes have three parts. -/
theorem check_test_handsOver_relative_rules :
    let p : ContainerPromtool := ⟨"podman", "prometheus", .ofSeconds 600, 42⟩
    let runtime : ContainerRuntime := ⟨fun _ => .exited 0, fun _ => .exited 0⟩
    let base := "/work".toList
    let d : Disk := ⟨[(["work"], .directory)]⟩
    let check := (p.check runtime (.ok base) d "rules.json").trace.filterMap EngineAction.command?
    let test := (p.test runtime (.ok base) d "rules.json" "/t.yaml").trace.filterMap
      EngineAction.command?
    Path.isAbsolute base = true ∧
      ∃ checkArgs testArgs, runs check = [("podman", checkArgs)] ∧
        Mounts checkArgs [("/work/rules.json", "/tmp/rules.verify")] ∧
        runs test = [("podman", testArgs)] ∧
        Mounts testArgs
          [("/t.yaml", "/tmp/rules.test"), ("/work/rules.json", "/tmp/rules.verify")] := by
  intro p runtime base d check test
  have hbase : Path.isAbsolute base = true := by decide
  have hrules : hostPath base "rules.json" = "/work/rules.json" := by decide
  have htests : hostPath base "/t.yaml" = "/t.yaml" := by decide
  obtain ⟨hcheck, htest⟩ := check_test_handsOver p runtime hbase d "rules.json" "/t.yaml"
  rw [hrules] at hcheck
  rw [hrules, htests] at htest
  exact ⟨hbase, _, _, hcheck.runs_eq, hcheck.mounts_iff.2 (by decide), htest.runs_eq,
    htest.mounts_iff.2 (by decide)⟩

/-- A colon in the path of the rules: the volume has four parts, of which the first two are cut out
of the path. -/
theorem check_volume_of_colon_path :
    let p : ContainerPromtool := ⟨"podman", "prometheus", .ofSeconds 600, 42⟩
    let runtime : ContainerRuntime := ⟨fun _ => .exited 0, fun _ => .exited 0⟩
    let check := (p.check runtime (.ok "/work".toList) ⟨[]⟩ "/work/a:b.json").trace
    ∃ args, runs (check.filterMap EngineAction.command?) = [("podman", args)] ∧
      (volumes args).map (fun v => (splitColon v.toList).map String.ofList) =
        [["/work/a", "b.json", "/tmp/rules.verify", "ro,Z"]] ∧
      ¬ Mounts args [("/work/a:b.json", "/tmp/rules.verify")] :=
  ⟨Promtool.checkArguments 42 "prometheus" "/work/a:b.json", by decide +kernel, by decide +kernel,
    by decide +kernel⟩

end ContainerPromtool

end OperatorRules
