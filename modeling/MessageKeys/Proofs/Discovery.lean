import MessageKeys.Proofs.Files.Elsewhere
import MessageKeys.Run
/-!
# Proofs.Discovery — the nearest configuration

Of the directories from the start upwards, the configuration is that of the nearest one that has one, as long
as none before it holds a `.git` (`IsHome`). One directory after the other is looked at
(`findConfig_eq`), so what is found is the configuration of the home of the start
(`findConfig_eq_some_iff`). What a configuration says is seen from its own directory. So from wherever it is
found, the same settings are made of it, and what it says to look through and where to write does not depend on
where that was (`discovery_exact`).
-/
namespace MessageKeys
open Files (PathName Disk Tree Location isPlainName)

namespace Files

namespace Tree

/-- Something of this name lies in a directory. -/
def holds (tree : Tree) (place : Location) (name : String) : Bool := (tree.at? (place ++ [name])).isSome

/-- The nearest directory from a start upwards that holds a configuration, with no `.git` on the way. -/
structure IsHome (tree : Tree) (start home : Location) : Prop where
  above : home <+: start
  config : tree.holds home configFileName
  nearest : ∀ place, home <+: place → place <+: start → place ≠ home →
    tree.holds place configFileName = false ∧ tree.holds place ".git" = false

variable {tree : Tree} {home above : Location} {name : String}

theorem isHome_nil : tree.IsHome [] home ↔ home = [] ∧ tree.holds [] configFileName := by
  constructor
  · rintro ⟨top, config, -⟩
    cases List.prefix_nil.1 top
    exact ⟨rfl, config⟩
  · rintro ⟨rfl, config⟩
    exact ⟨List.prefix_rfl, config, fun place _ top other => absurd (List.prefix_nil.1 top) other⟩

/-- A directory with a configuration is its own home. -/
theorem isHome_self (config : tree.holds above configFileName) : tree.IsHome above home ↔ home = above := by
  constructor
  · rintro ⟨inside, -, nearest⟩
    by_contra other
    have none_ := (nearest above inside List.prefix_rfl (Ne.symm other)).1
    rw [config] at none_
    cases none_
  · rintro rfl
    refine ⟨List.prefix_rfl, config, fun place below top other => ?_⟩
    exact absurd (top.eq_of_length_le below.length_le) other

/-- The home of a directory without a configuration is that of the directory above, unless there is a
`.git`. -/
theorem isHome_concat (without : tree.holds (above ++ [name]) configFileName = false) :
    tree.IsHome (above ++ [name]) home ↔
      tree.holds (above ++ [name]) ".git" = false ∧ tree.IsHome above home := by
  constructor
  · rintro ⟨inside, config, nearest⟩
    rcases List.prefix_concat_iff.1 inside with rfl | higher
    · rw [without] at config
      cases config
    · have other : above ++ [name] ≠ home := by
        rintro rfl
        exact absurd higher.length_le (by simp)
      refine ⟨(nearest _ inside List.prefix_rfl other).2, higher, config, fun place below top => ?_⟩
      exact nearest place below (top.trans (List.prefix_append _ _))
  · rintro ⟨free, higher, config, nearest⟩
    refine ⟨higher.trans (List.prefix_append _ _), config, fun place below top other => ?_⟩
    rcases List.prefix_concat_iff.1 top with rfl | top'
    · exact ⟨without, free⟩
    · exact nearest place below top' other

end Tree

/-! ## Looking upwards -/

namespace Disk

variable {disk : Disk} {start above : Location} {name : String}

theorem exists?_join_ofLocation (plain : ∀ other ∈ above, isPlainName other) (named : isPlainName name) :
    disk.exists? ((PathName.ofLocation above).join ⟨name⟩) = disk.tree.holds above name := by
  have all : ∀ other ∈ above ++ [name], isPlainName other :=
    List.forall_mem_append.2 ⟨plain, List.forall_mem_singleton.2 named⟩
  rw [PathName.join_ofLocation all, exists?_ofLocation all, Tree.holds]

theorem isPlainName_config : isPlainName configFileName := by decide +kernel

theorem isPlainName_git : isPlainName ".git" := by decide +kernel

/-- The first directory is looked at, then those above it. -/
theorem findConfig_eq (plain : ∀ other ∈ start, isPlainName other) :
    disk.findConfig (.ofLocation start) =
      if disk.tree.holds start configFileName then some (.ofLocation (start ++ [configFileName]))
      else if disk.tree.holds start ".git" then none
      else disk.findConfigIn (PathName.ofLocation start).parents := by
  have all : ∀ other ∈ start ++ [configFileName], isPlainName other :=
    List.forall_mem_append.2 ⟨plain, List.forall_mem_singleton.2 isPlainName_config⟩
  rw [findConfig, findConfigIn, exists?_join_ofLocation plain isPlainName_config,
    exists?_join_ofLocation plain isPlainName_git, PathName.join_ofLocation all]

/-- What is found is the configuration of the home of the start. -/
theorem findConfig_eq_some_iff (plain : ∀ other ∈ start, isPlainName other) {path : PathName} :
    disk.findConfig (.ofLocation start) = some path ↔
      ∃ home, disk.tree.IsHome start home ∧ path = .ofLocation (home ++ [configFileName]) := by
  induction start using List.reverseRecOn with
  | nil =>
      have top : (PathName.ofLocation []).parents = [] := by decide +kernel
      rw [findConfig_eq plain, top, findConfigIn, ite_self]
      simp only [Tree.isHome_nil]
      cases disk.tree.holds [] configFileName <;> simp [eq_comm]
  | append_singleton above name ih =>
      have higher : ∀ other ∈ above, isPlainName other := fun other member =>
        plain other (List.mem_append_left _ member)
      rw [findConfig_eq plain]
      cases config : disk.tree.holds (above ++ [name]) configFileName with
      | true =>
          simp only [Tree.isHome_self config]
          simp [eq_comm]
      | false =>
          rw [if_neg Bool.false_ne_true, PathName.parents_concat plain]
          simp only [Tree.isHome_concat config]
          cases disk.tree.holds (above ++ [name]) ".git" with
          | true => simp
          | false =>
              rw [if_neg Bool.false_ne_true, ← findConfig, ih higher]
              simp

end Disk
end Files

/-! ## Settings seen from a configuration -/

section Settings

variable {first second : Disk} {start other : PathName} {arguments : Arguments} {config : Config}

/-- What has been loaded was found. -/
theorem findConfig_of_loadConfig {place : Option PathName}
    (loaded : loadConfig first start = .ok (config, place)) : first.findConfig start = place := by
  unfold loadConfig at loaded
  split at loaded
  · cases loaded
    assumption
  · repeat' split at loaded
    all_goals cases loaded
    assumption

/-- What is loaded is told by what is found and by what stands in it. -/
theorem loadConfig_congr (found : second.findConfig other = first.findConfig start)
    (read : ∀ path, first.findConfig start = some path → second.read? path = first.read? path) :
    loadConfig second other = loadConfig first start := by
  unfold loadConfig
  rw [found]
  cases place : first.findConfig start with
  | none => rfl
  | some path => simp only [read path place]

/-- Seen from an absolute directory, the paths of a configuration are absolute. -/
theorem isAbsolute_configPath {directory : PathName} (absolute : directory.isAbsolute) (text : String) :
    (Settings.configPath directory text).isAbsolute := by
  simp only [Settings.configPath]
  split
  · assumption
  · exact PathName.isAbsolute_join_of_isAbsolute absolute _

theorem isAbsolute_inputsOf {directory : PathName} (absolute : directory.isAbsolute)
    (none_ : arguments.input = []) (some_ : config.input ≠ []) :
    ∀ path ∈ Settings.inputsOf arguments config directory, path.isAbsolute := by
  intro path member
  rw [Settings.inputsOf, none_, if_neg (by decide), if_pos (by simpa using some_)] at member
  obtain ⟨text, -, rfl⟩ := List.mem_map.1 member
  exact isAbsolute_configPath absolute text

theorem isAbsolute_outputsOf {directory : PathName} (absolute : directory.isAbsolute)
    (none_ : arguments.output = []) :
    ∀ path ∈ Settings.outputsOf arguments config directory, path.isAbsolute := by
  intro path member
  rw [Settings.outputsOf, none_, if_neg (by decide)] at member
  obtain ⟨text, -, rfl⟩ := List.mem_map.1 member
  exact isAbsolute_configPath absolute text

/-- The directory of a configuration that is found is absolute. -/
theorem exists_parent?_of_findConfig {disk : Disk} {start : Location}
    (plain : ∀ name ∈ start, isPlainName name) {path : PathName}
    (found : disk.findConfig (.ofLocation start) = some path) :
    path.isAbsolute ∧ ∃ home, path.parent? = some (.ofLocation home) := by
  obtain ⟨home, ⟨above, -, -⟩, rfl⟩ := (Disk.findConfig_eq_some_iff plain).1 found
  have higher : ∀ other ∈ home, isPlainName other := fun other member => plain other (above.subset member)
  have all : ∀ other ∈ home ++ [configFileName], isPlainName other :=
    List.forall_mem_append.2 ⟨higher, List.forall_mem_singleton.2 Disk.isPlainName_config⟩
  exact ⟨PathName.isAbsolute_ofLocation _, home, by rw [PathName.parent?, PathName.parents_concat all]; rfl⟩

/-- What is loaded where the same configuration is found is the same. -/
theorem loadConfig_elsewhere {tree : Tree} {start other current current' : Location}
    (plain : ∀ name ∈ start, isPlainName name) {path : PathName}
    (loaded : loadConfig ⟨tree, current⟩ (.ofLocation start) = .ok (config, some path))
    (found : (Disk.mk tree current').findConfig (.ofLocation other) = some path) :
    loadConfig ⟨tree, current'⟩ (.ofLocation other) = .ok (config, some path) := by
  have found' := findConfig_of_loadConfig loaded
  rw [← loaded]
  refine loadConfig_congr (found.trans found'.symm) fun path' same => ?_
  rw [found', Option.some.injEq] at same
  subst same
  have read : ((Disk.mk tree current).seenFrom current').read? path =
      (Disk.mk tree current).read? path :=
    Disk.read?_seenFrom (exists_parent?_of_findConfig plain found').1
  exact read

/-- The settings that come of a configuration are seen from its directory, wherever it was found from. Where
it says what to look through and where to write, that is absolute. -/
theorem exists_settings_of_loadConfig {disk : Disk} {start : Location}
    (plain : ∀ name ∈ start, isPlainName name) {path : PathName}
    (loaded : loadConfig disk (.ofLocation start) = .ok (config, some path)) (arguments : Arguments) :
    ∃ settings : Settings,
      (∀ other, Settings.ofLoaded arguments other (config, some path) = settings) ∧
        (arguments.input = [] → config.input ≠ [] → ∀ path ∈ settings.inputs, path.isAbsolute) ∧
        (arguments.output = [] → ∀ path ∈ settings.outputs, path.isAbsolute) := by
  obtain ⟨-, home, parent⟩ := exists_parent?_of_findConfig plain (findConfig_of_loadConfig loaded)
  have directory := PathName.isAbsolute_ofLocation home
  refine ⟨Settings.resolve arguments config (.ofLocation home), fun other => ?_,
    isAbsolute_inputsOf directory, isAbsolute_outputsOf directory⟩
  rw [Settings.ofLoaded, Option.bind_some, parent, Option.getD_some]

end Settings

/-- **Discovery, exactly.**  The configuration that is found is that of the home of the start, and none is found
where there is no home. From whatever other directory the same configuration is found, if it is valid, the
same settings come of it. What it says to look through and where to write does not depend on the working
directory, unless the command line says it. -/
theorem discovery_exact (tree : Tree) (start : Location) (plain : ∀ name ∈ start, isPlainName name)
    (current : Location) :
    (∀ path, (Disk.mk tree current).findConfig (.ofLocation start) = some path ↔
      ∃ home, tree.IsHome start home ∧ path = .ofLocation (home ++ [configFileName])) ∧
    ((Disk.mk tree current).findConfig (.ofLocation start) = none ↔ ∀ home, ¬tree.IsHome start home) ∧
    ∀ config path, loadConfig ⟨tree, current⟩ (.ofLocation start) = .ok (config, some path) →
      ∀ other current', (Disk.mk tree current').findConfig (.ofLocation other) = some path →
        ∀ arguments : Arguments, ∃ settings : Settings,
          (loadConfig ⟨tree, current⟩ (.ofLocation start)).map
              (Settings.ofLoaded arguments (.ofLocation start)) = .ok settings ∧
            (loadConfig ⟨tree, current'⟩ (.ofLocation other)).map
              (Settings.ofLoaded arguments (.ofLocation other)) = .ok settings ∧
            (arguments.input = [] → config.input ≠ [] → ∀ path ∈ settings.inputs, path.isAbsolute) ∧
            (arguments.output = [] → ∀ path ∈ settings.outputs, path.isAbsolute) := by
  have found : ∀ path, (Disk.mk tree current).findConfig (.ofLocation start) = some path ↔
      ∃ home, tree.IsHome start home ∧ path = .ofLocation (home ++ [configFileName]) :=
    fun _ => Disk.findConfig_eq_some_iff plain
  refine ⟨found, ?_, ?_⟩
  · rw [Option.eq_none_iff_forall_ne_some]
    simp only [ne_eq, found]
    exact ⟨fun never home is_ => never _ ⟨home, is_, rfl⟩, fun never _ ⟨home, is_, _⟩ => never home is_⟩
  · intro config path loaded other current' found' arguments
    have loaded' := loadConfig_elsewhere plain loaded found'
    obtain ⟨settings, same, absolute⟩ := exists_settings_of_loadConfig plain loaded arguments
    exact ⟨settings, by rw [loaded, Except.map, same], by rw [loaded', Except.map, same], absolute⟩

def projectConfig : String := "\x7b\"input\":[\"./src\"],\"output\":[\"out.json\"]\x7d"

/-- A configuration beside a `.git`, and a directory below. -/
def project : Tree :=
  (((Tree.empty.put ["p"] .directory).put ["p", "a"] .directory).put ["p", ".git"] .directory).put
    ["p", configFileName] (.file (.text projectConfig))

/-- Seen from below and from beside it, the configuration says the same. -/
theorem discovery_exact_project :
    (Disk.mk project ["p", "a"]).findConfig (.ofLocation ["p", "a"]) =
        some (.ofLocation ["p", configFileName]) ∧
      ∃ settings : Settings,
        (loadConfig ⟨project, ["p"]⟩ (.ofLocation ["p"])).map
            (Settings.ofLoaded { sort := true } (.ofLocation ["p"])) = .ok settings ∧
          (loadConfig ⟨project, ["p", "a"]⟩ (.ofLocation ["p", "a"])).map
            (Settings.ofLoaded { sort := true } (.ofLocation ["p", "a"])) = .ok settings ∧
          (∀ path ∈ settings.inputs, path.isAbsolute) ∧ ∀ path ∈ settings.outputs, path.isAbsolute := by
  have found : (Disk.mk project ["p"]).findConfig (.ofLocation ["p"]) =
      some (.ofLocation ["p", configFileName]) := by decide +kernel
  have read : (Disk.mk project ["p"]).read? (.ofLocation ["p", configFileName]) =
      some projectConfig := by decide +kernel
  have config : Config.ofString? projectConfig =
      some { input := ["./src"], output := ["out.json"] } := by decide +kernel
  have valid : Config.fault? { input := ["./src"], output := ["out.json"] } = none := by decide +kernel
  have loaded : loadConfig ⟨project, ["p"]⟩ (.ofLocation ["p"]) =
      .ok ({ input := ["./src"], output := ["out.json"] }, some (.ofLocation ["p", configFileName])) := by
    simp only [loadConfig, found, read, config, valid]
  have found' : (Disk.mk project ["p", "a"]).findConfig (.ofLocation ["p", "a"]) =
      some (.ofLocation ["p", configFileName]) := by decide +kernel
  obtain ⟨settings, one, other, inputs, outputs⟩ :=
    (discovery_exact project ["p"] (by decide +kernel) ["p"]).2.2 _ _ loaded ["p", "a"] ["p", "a"] found'
      { sort := true }
  exact ⟨found', settings, one, other, inputs rfl (by simp), outputs rfl⟩

end MessageKeys
