import PathSieve.Proofs.Session
import PathSieve.Proofs.Tree.Inside

/-! Where settings come from. The first file that is found decides alone: nothing is taken from one
behind it, not even if no settings can be read from it. Of its lists, only those of the policy in
use count. -/

namespace PathSieve

namespace Environment

inductive IsHome (env : Environment) : Bytes → Prop
  | named {d : Bytes} : env.home = some d → d ≠ [] → IsHome env d
  | account {d : Bytes} : (∀ d ∈ env.home, d = []) → env.accountHome = some d → d ≠ [] →
      IsHome env d

inductive IsConfigDirectory (env : Environment) : Bytes → Prop
  | configured {d : Bytes} : env.configHome = some d → Path.isAbsolute d = true →
      IsConfigDirectory env d
  | home {d : Bytes} : (∀ d ∈ env.configHome, Path.isAbsolute d = false) → env.IsHome d →
      IsConfigDirectory env (Path.join d (Utf8.encode ".config".toList))

inductive IsUserDirectory (env : Environment) : Bytes → Prop
  | named {d : Bytes} : env.settingsDirectory = some d → d ≠ [] → IsUserDirectory env d
  | standard {d : Bytes} : (∀ d ∈ env.settingsDirectory, d = []) → env.IsConfigDirectory d →
      IsUserDirectory env (Path.join d (Utf8.encode "pathcheck".toList))

variable {env : Environment} {directory : Bytes}

lemma filter_nonempty_eq_some {o : Option Bytes} :
    o.filter (!·.isEmpty) = some directory ↔ o = some directory ∧ directory ≠ [] := by
  simp [Option.filter_eq_some_iff]

lemma or_nonempty_eq_some {o rest : Option Bytes} :
    (o.filter (!·.isEmpty)).or rest = some directory ↔
      (o = some directory ∧ directory ≠ []) ∨ ((∀ d ∈ o, d = []) ∧ rest = some directory) := by
  have hnone : o.filter (!·.isEmpty) = none ↔ ∀ d ∈ o, d = [] := by
    simp [Option.filter_eq_none_iff]
  rw [Option.or_eq_some_iff, filter_nonempty_eq_some, hnone]

lemma homeDirectory?_eq_some : env.homeDirectory? = some directory ↔ env.IsHome directory := by
  have hor : env.homeDirectory? =
      (env.home.filter (!·.isEmpty)).or (env.accountHome.filter (!·.isEmpty)) :=
    Option.orElse_eq_or ..
  rw [hor, or_nonempty_eq_some, filter_nonempty_eq_some]
  constructor
  · rintro (⟨hd, hne⟩ | ⟨hempty, hd, hne⟩)
    · exact .named hd hne
    · exact .account hempty hd hne
  · rintro (⟨hd, hne⟩ | ⟨hempty, hd, hne⟩)
    · exact Or.inl ⟨hd, hne⟩
    · exact Or.inr ⟨hempty, hd, hne⟩

lemma configDirectory?_eq_some :
    env.configDirectory? = some directory ↔ env.IsConfigDirectory directory := by
  have hor : env.configDirectory? = (env.configHome.filter Path.isAbsolute).or
      (env.homeDirectory?.map (Path.join · (Utf8.encode ".config".toList))) := by
    rw [configDirectory?]
    cases env.configHome.filter Path.isAbsolute <;> rfl
  have hnone : env.configHome.filter Path.isAbsolute = none ↔
      ∀ d ∈ env.configHome, Path.isAbsolute d = false := by
    simp [Option.filter_eq_none_iff]
  rw [hor, Option.or_eq_some_iff, hnone, Option.filter_eq_some_iff, Option.map_eq_some_iff]
  constructor
  · rintro (⟨hd, habsolute⟩ | ⟨hrelative, d, hd, rfl⟩)
    · exact .configured hd habsolute
    · exact .home hrelative (homeDirectory?_eq_some.mp hd)
  · rintro (⟨hd, habsolute⟩ | ⟨hrelative, hd⟩)
    · exact Or.inl ⟨hd, habsolute⟩
    · exact Or.inr ⟨hrelative, _, homeDirectory?_eq_some.mpr hd, rfl⟩

lemma userDirectory?_eq_some :
    env.userDirectory? = some directory ↔ env.IsUserDirectory directory := by
  have hor : env.userDirectory? = (env.settingsDirectory.filter (!·.isEmpty)).or
      (env.configDirectory?.map (Path.join · (Utf8.encode "pathcheck".toList))) := by
    rw [userDirectory?]
    cases env.settingsDirectory.filter (!·.isEmpty) <;> rfl
  rw [hor, or_nonempty_eq_some, Option.map_eq_some_iff]
  constructor
  · rintro (⟨hd, hne⟩ | ⟨hempty, d, hd, rfl⟩)
    · exact .named hd hne
    · exact .standard hempty (configDirectory?_eq_some.mp hd)
  · rintro (⟨hd, hne⟩ | ⟨hempty, hd⟩)
    · exact Or.inl ⟨hd, hne⟩
    · exact Or.inr ⟨hempty, _, configDirectory?_eq_some.mpr hd, rfl⟩

end Environment

namespace Settings

inductive Unusable (diagnose : Text → Toml.Diagnosis) (world : World) (path : Bytes) :
    Failure → Prop
  | unreadable {cause : Refusal} : world.read path = .error cause →
      Unusable diagnose world path (.settingsUnreadable path cause)
  | notUtf8 {content : Bytes} : world.read path = .ok content → Utf8.decode? content = none →
      Unusable diagnose world path (.settingsUnreadable path .notUtf8)
  | invalid {content : Bytes} {t : Text} {fault : Fault} : world.read path = .ok content →
      Utf8.decode? content = some t → ofText diagnose t = .error fault →
      Unusable diagnose world path (.settingsInvalid path fault)

lemma Unusable.load {diagnose : Text → Toml.Diagnosis} {world : World} {path : Bytes} {e : Failure}
    (h : Unusable diagnose world path e) : load diagnose world path = .error e := by
  cases h with
  | unreadable hread => rw [Settings.load, hread]
  | notUtf8 hread hdecode => simp only [Settings.load, hread, ofBytes, hdecode]
  | invalid hread hdecode htext =>
    simp only [Settings.load, hread, ofBytes, hdecode, htext, Except.mapError]

def SameLists (settings settings' : Settings) : Policy.Kind → Prop
  | .denylist => settings.exact = settings'.exact ∧ settings.prefixes = settings'.prefixes ∧
      settings.suffixes = settings'.suffixes
  | .allowlist => settings.patterns = settings'.patterns

lemma policyFor_congr {settings settings' : Settings} {chosen chosen' : Option Policy.Kind}
    (hkind : settings.kindFor chosen = settings'.kindFor chosen')
    (hlists : settings.SameLists settings' (settings.kindFor chosen)) :
    settings.policyFor chosen = settings'.policyFor chosen' := by
  rw [policyFor, policyFor, ← hkind]
  cases hk : settings.kindFor chosen with
  | denylist =>
    rw [hk] at hlists
    obtain ⟨hexact, hprefixes, hsuffixes⟩ := hlists
    rw [Policy.build, Policy.build, hexact, hprefixes, hsuffixes]
  | allowlist =>
    rw [hk] at hlists
    have hpatterns : settings.patterns = settings'.patterns := hlists
    rw [Policy.build, Policy.build, hpatterns]

end Settings

namespace Session

structure Start where
  world : World
  env : Environment
  arguments : Arguments

namespace Start

def settings (host : Host) (s : Start) : Except Failure (Settings × Option Bytes) :=
  discovered host s.world s.env s.arguments

def policy (host : Host) (s : Start) : Except Failure Policy := do
  let (settings, _) ← s.settings host
  settings.policyFor s.arguments.policy

def rootFile (s : Start) : Bytes := Path.join s.arguments.directory Settings.localName

def userFile (directory : Bytes) : Bytes := Path.join directory Settings.userName

/-- The first file for settings that is found. One that is asked for counts as being found. -/
inductive First (s : Start) : Option Bytes → Prop
  | asked {path : Bytes} : s.arguments.settings = some path → First s (some path)
  | ofRoot : s.arguments.settings = none → s.world.hasFile s.rootFile = true →
      First s (some s.rootFile)
  | ofUser {d : Bytes} : s.arguments.settings = none → s.world.hasFile s.rootFile = false →
      s.env.IsUserDirectory d → s.world.hasFile (userFile d) = true → First s (some (userFile d))
  | nowhere : s.arguments.settings = none → s.world.hasFile s.rootFile = false →
      (∀ d, s.env.IsUserDirectory d → s.world.hasFile (userFile d) = false) → First s none

def first (s : Start) : Option Bytes :=
  s.arguments.settings <|>
    (Settings.candidates s.arguments.directory s.env.userDirectory?).find? s.world.hasFile

variable {s : Start} {source : Option Bytes}

lemma first_of_none (h : s.arguments.settings = none) :
    s.first = if s.world.hasFile s.rootFile then some s.rootFile
      else (s.env.userDirectory?.map userFile).filter s.world.hasFile := by
  have hcandidates : Settings.candidates s.arguments.directory s.env.userDirectory? =
      s.rootFile :: (s.env.userDirectory?.map userFile).toList := rfl
  rw [first, h, hcandidates, List.find?_cons]
  cases s.world.hasFile s.rootFile with
  | true => rfl
  | false =>
    cases s.env.userDirectory? with
    | none => rfl
    | some d => cases hd : s.world.hasFile (userFile d) <;> simp [Option.filter, hd]

lemma first_of_user (h : s.arguments.settings = none)
    (hroot : s.world.hasFile s.rootFile = false) :
    s.first = (s.env.userDirectory?.map userFile).filter s.world.hasFile := by
  rw [first_of_none h, hroot, if_neg Bool.false_ne_true]

lemma First.eq (h : s.First source) : s.first = source := by
  cases h with
  | asked hpath =>
    rw [first, hpath]
    rfl
  | ofRoot hnone hfile => rw [first_of_none hnone, if_pos hfile]
  | @ofUser d hnone hroot hdir hfile =>
    have hd : s.env.userDirectory?.map userFile = some (userFile d) :=
      congrArg (Option.map userFile) (Environment.userDirectory?_eq_some.mpr hdir)
    rw [first_of_user hnone hroot, Option.filter_eq_some_iff.mpr ⟨hd, hfile⟩]
  | nowhere hnone hroot hfile =>
    rw [first_of_user hnone hroot, Option.filter_eq_none_iff]
    intro path hpath
    obtain ⟨d, hd, rfl⟩ := Option.map_eq_some_iff.mp hpath
    exact Bool.eq_false_iff.mp (hfile d (Environment.userDirectory?_eq_some.mp hd))

lemma first_first (s : Start) : s.First s.first := by
  cases hasked : s.arguments.settings with
  | some path =>
    rw [first, hasked]
    exact .asked hasked
  | none =>
    cases hroot : s.world.hasFile s.rootFile with
    | true =>
      rw [first_of_none hasked, if_pos hroot]
      exact .ofRoot hasked hroot
    | false =>
      rw [first_of_user hasked hroot]
      cases huser : (s.env.userDirectory?.map userFile).filter s.world.hasFile with
      | some path =>
        obtain ⟨hpath, hfile⟩ := Option.filter_eq_some_iff.mp huser
        obtain ⟨d, hd, rfl⟩ := Option.map_eq_some_iff.mp hpath
        exact .ofUser hasked hroot (Environment.userDirectory?_eq_some.mp hd) hfile
      | none =>
        refine .nowhere hasked hroot fun d hd => Bool.eq_false_iff.mpr ?_
        exact Option.filter_eq_none_iff.mp huser _
          (congrArg (Option.map userFile) (Environment.userDirectory?_eq_some.mpr hd))

variable (host : Host)

lemma settings_eq (s : Start) :
    s.settings host = match s.first with
      | some path => (Settings.load host.diagnose s.world path).map (·, some path)
      | none => .ok ({}, none) := rfl

lemma settings_congr {a b : Start} (hfirst : a.first = b.first)
    (hread : ∀ path ∈ a.first, a.world.read path = b.world.read path) :
    a.settings host = b.settings host := by
  rw [settings_eq, settings_eq, ← hfirst]
  cases hsource : a.first with
  | none => rfl
  | some path =>
    have hload : Settings.load host.diagnose a.world path =
        Settings.load host.diagnose b.world path := by
      rw [Settings.load, Settings.load, hread path hsource]
    exact congrArg (Except.map (·, some path)) hload

lemma value_write (s : Start) (input : Bytes) :
    (write host s.world s.env s.arguments input).value = match s.policy host with
      | .error e => .fail none e
      | .ok policy => (Run.write policy (!s.arguments.noDiagnostics) none
          (list host s.world s.env s.arguments input)).value := by
  rw [write, policy, settings]
  cases discovered host s.world s.env s.arguments with
  | error e => rfl
  | ok found =>
    obtain ⟨settings, source⟩ := found
    simp only [bind, Except.bind]
    cases settings.policyFor s.arguments.policy <;> rfl

def Alike (a b : Start) : Prop :=
  a.policy host = b.policy host ∧ ∀ input input',
    (list host a.world a.env a.arguments input).value =
      (list host b.world b.env b.arguments input').value →
    a.arguments.noDiagnostics = b.arguments.noDiagnostics →
    (write host a.world a.env a.arguments input).value =
      (write host b.world b.env b.arguments input').value

variable {host}

lemma alike_of_policy {a b : Start} (h : a.policy host = b.policy host) : a.Alike host b := by
  refine ⟨h, fun input input' hlist hdiagnostics => ?_⟩
  rw [value_write, value_write, h, hdiagnostics]
  cases b.policy host with
  | error e => rfl
  | ok policy => exact Run.value_write_congr hlist

variable (host)

/-- What a session makes of its settings depends on this file alone. -/
structure DecidedBy (a : Start) (source : Option Bytes) : Prop where
  absent : source = none → a.settings host = .ok ({}, none)
  present : ∀ path ∈ source,
    a.settings host = (Settings.load host.diagnose a.world path).map (·, some path)
  unusable : ∀ path ∈ source, ∀ e, Settings.Unusable host.diagnose a.world path e →
    a.settings host = .error e ∧ a.policy host = .error e
  alone : ∀ b : Start, b.First source → (∀ path ∈ source, a.world.read path = b.world.read path) →
    a.settings host = b.settings host ∧
      (a.arguments.policy = b.arguments.policy → a.Alike host b)

lemma decidedBy_first (a : Start) : a.DecidedBy host a.first := by
  have hpresent : ∀ path ∈ a.first,
      a.settings host = (Settings.load host.diagnose a.world path).map (·, some path) := by
    intro path hpath
    rw [settings_eq, hpath]
  refine ⟨fun hnone => ?_, hpresent, fun path hpath e he => ?_, fun b hb hread => ?_⟩
  · rw [settings_eq, hnone]
  · have hsettings : a.settings host = .error e := by
      rw [hpresent path hpath, he.load]
      rfl
    refine ⟨hsettings, ?_⟩
    rw [policy, hsettings]
    rfl
  · have hsettings := settings_congr host hb.eq.symm hread
    refine ⟨hsettings, fun hpolicy => alike_of_policy ?_⟩
    rw [policy, policy, hsettings, hpolicy]

variable {host}

lemma alike_of_lists {a b : Start} {found found' : Settings × Option Bytes}
    (ha : a.settings host = .ok found) (hb : b.settings host = .ok found')
    (hkind : found.1.kindFor a.arguments.policy = found'.1.kindFor b.arguments.policy)
    (hlists : found.1.SameLists found'.1 (found.1.kindFor a.arguments.policy)) :
    a.Alike host b := by
  refine alike_of_policy ?_
  rw [policy, policy, ha, hb]
  exact Settings.policyFor_congr hkind hlists

lemma hasFile_of_holds {world : World} {directory name : Bytes} {access : Access}
    (hname : name ∈ [Settings.localName, Settings.userName])
    (h : world.Holds directory name access) (henter : access.canEnter = true)
    (hpath : (Path.join directory name).length < World.pathLimit) :
    world.hasFile (Path.join directory name) = true := by
  have hnames : ∀ name ∈ [Settings.localName, Settings.userName],
      Path.IsName name ∧ 0 ∉ name ∧ name.length ≤ World.nameLimit := by decide
  obtain ⟨hname, hnul, hlen⟩ := hnames name hname
  exact World.hasFile_join h henter hname hnul hlen hpath

end Start

theorem settings_of_first_source (host : Host) (a : Start) :
    (∃! source, a.First source) ∧ (∀ source, a.First source → a.DecidedBy host source) ∧
      (∀ (b : Start) (found found' : Settings × Option Bytes),
        a.settings host = .ok found → b.settings host = .ok found' →
        found.1.kindFor a.arguments.policy = found'.1.kindFor b.arguments.policy →
        found.1.SameLists found'.1 (found.1.kindFor a.arguments.policy) → a.Alike host b) ∧
      ∀ directory access, ∀ name ∈ [Settings.localName, Settings.userName],
        a.world.Holds directory name access → access.canEnter = true →
        (Path.join directory name).length < World.pathLimit →
        a.world.hasFile (Path.join directory name) = true := by
  refine ⟨⟨a.first, a.first_first, fun _ h => h.eq.symm⟩, fun source h => ?_, ?_, ?_⟩
  · exact h.eq ▸ a.decidedBy_first host
  · exact fun b found found' => Start.alike_of_lists
  · exact fun directory access name => Start.hasFile_of_holds

def deskTree (own user : Text) : Tree :=
  .directory [(Settings.localName, .file (Utf8.encode own) false true),
    ([0x75], .directory [(Settings.userName, .file (Utf8.encode user) false true)] .free)] .free

def desk (own user : Text) (env : Environment) : Start :=
  ⟨⟨deskTree own user, []⟩, env, { policy := some .denylist }⟩

def deskFile : Bytes := Utf8.encode "./.pathcheck.toml".toList

lemma find?_desk (own user : Text) (env : Environment) :
    (desk own user env).world.find? deskFile =
      .ok ((World.Place.top (deskTree own user)).down Settings.localName
        (.file (Utf8.encode own) false true)) := by
  have h : (desk own user env).world.find? deskFile =
      World.follow (deskTree own user) World.linkLimit (.top (deskTree own user))
        [[Path.dot], Settings.localName] := rfl
  rw [h, World.follow_dot rfl rfl, World.follow_name rfl rfl (by decide) (by decide) rfl (by simp),
    World.follow]

lemma read_desk (own user : Text) (env : Environment) :
    (desk own user env).world.read deskFile = .ok (Utf8.encode own) := by
  rw [World.read, find?_desk]
  rfl

lemma first_desk (own user : Text) (env : Environment) :
    (desk own user env).First (some deskFile) := by
  refine .ofRoot rfl ?_
  have hfile : (desk own user env).rootFile = deskFile := rfl
  rw [hfile, World.hasFile, find?_desk]
  rfl

lemma settings_desk {host : Host} {own : Text} {settings : Settings} (user : Text)
    (env : Environment) (h : Settings.ofText host.diagnose own = .ok settings) :
    (desk own user env).settings host = .ok (settings, some deskFile) := by
  have hload : Settings.load host.diagnose (desk own user env).world deskFile = .ok settings := by
    simp only [Settings.load, read_desk, Settings.ofBytes, Utf8.decode?_encode, h, Except.mapError]
  rw [((desk own user env).decidedBy_first host).present deskFile (first_desk own user env).eq,
    hload]
  rfl

theorem settings_of_first_source_desk :
    let host : Host := ⟨fun _ _ _ _ => .error .missing, fun _ => ⟨⟨0, 0⟩, []⟩⟩
    let own := "known-paths.patterns=['a']".toList
    let a := desk own [] {}
    let b := desk own "=".toList { settingsDirectory := some [0x75] }
    let c := desk "known-paths.patterns=['[']".toList [] {}
    (∃ fault, Settings.ofText host.diagnose "=".toList = .error fault) ∧
      a.First (some deskFile) ∧ b.First (some deskFile) ∧ a.settings host = b.settings host ∧
      a.Alike host b ∧ a.settings host = .ok ({ patterns := some [['a']] }, some deskFile) ∧
      c.settings host = .ok ({ patterns := some [['[']] }, some deskFile) ∧ a.Alike host c ∧
      a.world.hasFile (Path.join [Path.dot] Settings.localName) = true := by
  intro host own a b c
  obtain ⟨-, hdecided, hlists, hfile⟩ := settings_of_first_source host a
  have ha : a.settings host = .ok ({ patterns := some [['a']] }, some deskFile) :=
    settings_desk _ _ rfl
  have hc : c.settings host = .ok ({ patterns := some [['[']] }, some deskFile) :=
    settings_desk _ _ rfl
  have hread : ∀ path ∈ some deskFile, a.world.read path = b.world.read path := by
    rintro _ ⟨⟩
    rw [read_desk, read_desk]
  have hholds : a.world.Holds [Path.dot] Settings.localName .free :=
    ⟨_, _, _, World.find?_dot rfl, rfl, rfl, rfl⟩
  obtain ⟨hsame, halike⟩ := (hdecided _ (first_desk _ _ _)).alone b (first_desk _ _ _) hread
  exact ⟨⟨_, rfl⟩, first_desk _ _ _, first_desk _ _ _, hsame, halike rfl, ha, hc,
    hlists c _ _ ha hc rfl ⟨rfl, rfl, rfl⟩,
    hfile _ _ _ List.mem_cons_self hholds rfl (by decide)⟩

section Far

-- the working directory, with slashes behind its dot
def farDirectory (n : ℕ) : Bytes := Path.dot :: List.replicate n Path.slash

def far (n : ℕ) : Start where
  world := ⟨deskTree "=".toList [], []⟩
  env := { settingsDirectory := some [0x75] }
  arguments := { directory := farDirectory n }

lemma zero_notMem_farDirectory (n : ℕ) : 0 ∉ farDirectory n := by
  simp [farDirectory, Path.dot, Path.slash]

lemma length_farDirectory (n : ℕ) : (farDirectory n).length = n + 1 := by simp [farDirectory]

lemma pieces_farDirectory (n : ℕ) :
    World.pieces (farDirectory n) = [Path.dot] :: List.replicate n [] := by
  rw [World.pieces, farDirectory]
  exact Text.splitOn_cons (by decide)
    (Text.splitOn_replicate (p := (· == Path.slash)) (beq_self_eq_true _) n)

lemma holds_far {n : ℕ} (h : n + 1 < World.pathLimit) :
    (far n).world.Holds (farDirectory n) Settings.localName .free := by
  have hfind : (far n).world.find? (farDirectory n) = .ok (.top (far n).world.root) := by
    rw [World.find?, if_neg (by simpa using zero_notMem_farDirectory n),
      if_neg (by simpa [farDirectory] using h), if_neg (by simp [farDirectory]),
      if_neg (by simp [Path.isAbsolute, farDirectory, Path.dot, Path.slash])]
    show World.follow _ _ _ _ = _
    rw [pieces_farDirectory, World.follow_dot rfl rfl]
    exact World.follow_replicate_empty rfl n
  exact ⟨_, _, _, hfind, rfl, rfl, rfl⟩

lemma length_rootFile_far (n : ℕ) : n + 16 ≤ (far n).rootFile.length := by
  have hrelative : Path.isAbsolute Settings.localName = false := rfl
  have hlength := Path.length_le_join (farDirectory n) hrelative
  rwa [length_farDirectory] at hlength

lemma hasFile_far {n : ℕ} (h : World.pathLimit ≤ n + 16) :
    (far n).world.hasFile (far n).rootFile = false := by
  have hzero : 0 ∉ (far n).rootFile :=
    World.notMem_join (by decide) (zero_notMem_farDirectory n) (by decide)
  rw [World.hasFile, World.find?, if_neg (by simpa using hzero),
    if_pos (h.trans (length_rootFile_far n))]

lemma find?_userFile (n : ℕ) : ∃ names above,
    (far n).world.find? (Start.userFile [0x75]) = .ok ⟨names, .file [] false true, above⟩ := by
  have h : (far n).world.find? (Start.userFile [0x75]) =
      World.follow (far n).world.root World.linkLimit (.top (far n).world.root)
        [[0x75], Settings.userName] := rfl
  rw [h, World.follow_name rfl rfl (by decide) (by decide) rfl (by simp),
    World.follow_name rfl rfl (by decide) (by decide) rfl (by simp), World.follow]
  exact ⟨_, _, rfl⟩

lemma first_far {n : ℕ} (h : World.pathLimit ≤ n + 16) :
    (far n).First (some (Start.userFile [0x75])) := by
  obtain ⟨names, above, hfind⟩ := find?_userFile n
  refine .ofUser rfl (hasFile_far h) (.named rfl (List.cons_ne_nil _ _)) ?_
  rw [World.hasFile, hfind]
  rfl

lemma settings_far {n : ℕ} (h : World.pathLimit ≤ n + 16) (host : Host) :
    (far n).settings host = .ok ({}, some (Start.userFile [0x75])) := by
  obtain ⟨names, above, hfind⟩ := find?_userFile n
  have hread : (far n).world.read (Start.userFile [0x75]) = .ok (Utf8.encode []) := by
    rw [World.read, hfind]
    rfl
  have hload : Settings.load host.diagnose (far n).world (Start.userFile [0x75]) = .ok {} := by
    rw [Settings.load, hread]
    dsimp only
    rw [Settings.ofBytes, Utf8.decode?_encode]
    rfl
  rw [((far n).decidedBy_first host).present _ (first_far h).eq, hload]
  rfl

-- A file in the root is passed over if its path is too long, though the one of the root is not.
theorem not_settings_of_first_source :
    ¬ ∀ (host : Host) (s : Start) (access : Access) (found : Settings × Option Bytes),
      s.arguments.settings = none →
      s.world.Holds s.arguments.directory Settings.localName access →
      s.settings host = .ok found → found.2 = some s.rootFile := by
  intro h
  have hfound := h ⟨fun _ _ _ _ => .error .missing, fun _ => ⟨⟨0, 0⟩, []⟩⟩ (far 4090) .free _ rfl
    (holds_far (by decide)) (settings_far (by decide) _)
  have hlength := length_rootFile_far 4090
  rw [← Option.some.inj hfound] at hlength
  exact absurd hlength (by decide)

end Far

end Session

end PathSieve
