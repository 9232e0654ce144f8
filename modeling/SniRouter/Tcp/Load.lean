import SniRouter.H3.Load
import SniRouter.Tcp.Routing

/-!
# Loading the configuration of the TCP router

Both binaries read one configuration file. `Tcp.loadConfig` turns the message in it into the
configuration of the TCP router, which has certificates and sorry servers on top of what the
HTTP/3 router knows. `LoadsConfig` says, without the order of the checks, which messages it
accepts and what it makes of them; a loaded configuration never has a client tried at more than
two backends, and a file that both routers accept makes them route alike.
-/

namespace SniRouter

namespace Tcp

/-! ## The configuration message -/

namespace Protos

structure Proxy where
  addr : String
  proxyHeader : Bool
  backendTls : Option BackendTls

inductive BackendType where
  | null
  | proxy (proxy : Proxy)
  | pass (path : String)

inductive Backend where
  | mk (backendType : Option BackendType) (sorryServer : Option Backend)
      (frontendTls : Option FrontendTls)

namespace Backend

def backendType : Backend → Option BackendType
  | mk backendType _ _ => backendType

def sorryServer : Backend → Option Backend
  | mk _ sorryServer _ => sorryServer

def frontendTls : Backend → Option FrontendTls
  | mk _ _ frontendTls => frontendTls

end Backend

structure Rule where
  regex : Option String
  acl : Option SniRouter.Protos.Acl
  backend : Option Backend
  maxLifetimeMs : ℕ

/-- `SNIConfig`. The QUIC-LB entries are for the HTTP/3 router only. -/
structure SniConfig where
  quicLb : List SniRouter.Protos.QuicLbConfig
  rules : List Rule
  default : Option Rule
  maxLifetimeMs : ℕ
  handshakeTimeoutMs : ℕ

end Protos

/-- What loading a configuration asks for, beyond what the HTTP/3 router does. -/
structure LoadEnv extends SniRouter.LoadEnv where
  loadCerts : String → Except String (List Bytes)
  loadPrivateKey : String → Except String Bytes
  /-- `RootCertStore::add`. -/
  addRoot : Bytes → Except String Unit
  /-- `WebPkiClientVerifier::builder(..).build()`. -/
  buildVerifier : List Bytes → Except String Unit
  withSingleCert : List Bytes → Bytes → Except String Unit
  withClientAuthCert : List Bytes → Bytes → Except String Unit

/-- `Config`, with the limit that covers the whole of `handle_conn`. -/
structure LoadedConfig extends Config where
  maxLifetime : Option Duration

/-- `Option::transpose`. -/
def transpose {α : Type} : Option (Except String α) → Except String (Option α)
  | none => .ok none
  | some (.ok a) => .ok (some a)
  | some (.error e) => .error e

/-! ## TLS -/

section Load

variable (env : LoadEnv)

def addRoots (path : String) : List Bytes → Except String Unit
  | [] => .ok ()
  | cert :: certs => do
    (env.addRoot cert).mapError fun _ => s!"add CA cert from {path}"
    addRoots path certs

def loadRootStore (path : String) : Except String (List Bytes) := do
  let certs ← env.loadCerts path
  addRoots env path certs
  return certs

/-- The verifier of client certificates, when clients have to present one. -/
def loadVerifier (mtlsCa : String) : Except String Unit :=
  if mtlsCa = "" then .ok ()
  else do
    let roots ← loadRootStore env mtlsCa
    (env.buildVerifier roots).mapError fun _ => "build client cert verifier"

/-- Load TLS data from files as specified in the proto part. -/
def loadTls (pb : Option FrontendTls) : Except String (Option FrontendTls) :=
  match pb with
  | none => .ok none
  | some pb => do
    let certs ← env.loadCerts pb.certFile
    let key ← env.loadPrivateKey pb.keyFile
    loadVerifier env pb.mtlsCa
    env.withSingleCert certs key
    return some pb

def loadBackendTls (pb : BackendTls) : Except String BackendTls :=
  if (pb.certFile = "") ≠ (pb.keyFile = "") then
    .error "backend TLS client authentication requires both cert_file and key_file"
  else if pb.certFile = "" then .ok pb
  else do
    let certs ← env.loadCerts pb.certFile
    let key ← env.loadPrivateKey pb.keyFile
    (env.withClientAuthCert certs key).mapError fun _ => "loading backend TLS client credentials"
    return pb

/-! ## Rules -/

/-- The backend itself, with its sorry server loaded. -/
def loadBackendType (be : Protos.BackendType) (frontendTls : Option FrontendTls)
    (sorryServer : Option Backend) : Except String Backend :=
  match be with
  | .null =>
    if sorryServer.isSome then .error "null backend with sorry server not allowed" else .ok .null
  | .proxy p =>
    if p.proxyHeader ∧ p.backendTls.isSome then
      .error "backend TLS is currently not supported combined with proxy protocol"
    else do
      let frontendTls ← loadTls env frontendTls
      let backendTls ← transpose (p.backendTls.map (loadBackendTls env))
      return .proxy p.addr p.proxyHeader frontendTls backendTls sorryServer
  | .pass path => do
    let frontendTls ← loadTls env frontendTls
    return .pass path frontendTls sorryServer

/-- Load backend config from the parsed proto. The call for the sorry server has none of its own,
so it is the last one. -/
def loadBackend (be : Protos.BackendType) (frontendTls : Option FrontendTls)
    (sorryServer : Option Protos.Backend) : Except String Backend :=
  match sorryServer with
  | none => loadBackendType env be frontendTls none
  | some s =>
    if s.sorryServer.isSome then .error "sorry servers can't have sorry servers"
    else do
      let sorryType ← okOr s.backendType "empty sorry backend"
      let loaded ← loadBackendType env sorryType s.frontendTls none
      loadBackendType env be frontendTls (some loaded)

/-- The regex of a rule. The one of the default rule is empty and matches every name. -/
def loadRegex (rule : Protos.Rule) (isDefault : Bool) : Except String (Bytes → Bool) :=
  if isDefault then
    match rule.regex with
    | some re => .error s!"default rule can't have regex. Had {re}"
    | none => .ok fun _ => true
  else do
    let re ← okOr rule.regex "No regex supplied in rule"
    env.compileFullMatch re

def loadRule (rule : Protos.Rule) (isDefault : Bool) : Except String Rule := do
  let re ← loadRegex env rule isDefault
  let acl ← rule.acl.elim (.ok ⟨[], .accept⟩) (loadAcl env.toLoadEnv)
  let backend ← okOr rule.backend "rule missing backend"
  let be ← okOr backend.backendType "backend missing actual backend"
  let backend ← loadBackend env be backend.frontendTls backend.sorryServer
  return ⟨re, backend, acl, optMillis rule.maxLifetimeMs⟩

/-- Attempt to load the config. This transitively loads any TLS cert/key too. -/
def loadConfig (protocfg : Protos.SniConfig) : Except String LoadedConfig := do
  let default ← okOr protocfg.default "default rule is missing"
  let default ← loadRule env default true
  let rules ← protocfg.rules.mapM fun rule => loadRule env rule false
  return {
    maxLifetime := optMillis protocfg.maxLifetimeMs
    handshakeTimeout := optMillis protocfg.handshakeTimeoutMs
    rules := rules
    default := default }

end Load

/-! ## What is accepted -/

/-- The files of a frontend TLS message can be used together. -/
structure FrontendTls.Loads (env : LoadEnv) (pb : FrontendTls) : Prop where
  cert : ∃ certs key, env.loadCerts pb.certFile = .ok certs ∧
    env.loadPrivateKey pb.keyFile = .ok key ∧ env.withSingleCert certs key = .ok ()
  mtls : pb.mtlsCa ≠ "" → ∃ roots, env.loadCerts pb.mtlsCa = .ok roots ∧
    (∀ root ∈ roots, env.addRoot root = .ok ()) ∧ env.buildVerifier roots = .ok ()

/-- Both client credentials or neither, and files that can be used together. -/
structure BackendTls.Loads (env : LoadEnv) (pb : BackendTls) : Prop where
  both : pb.certFile = "" ↔ pb.keyFile = ""
  cert : pb.certFile ≠ "" → ∃ certs key, env.loadCerts pb.certFile = .ok certs ∧
    env.loadPrivateKey pb.keyFile = .ok key ∧ env.withClientAuthCert certs key = .ok ()

/-- A backend with a loaded sorry server. The frontend TLS of a null backend is not looked at. -/
inductive LoadsType (env : LoadEnv) (frontendTls : Option FrontendTls)
    (sorryServer : Option Backend) : Protos.BackendType → Backend → Prop
  | null (hfallback : sorryServer = none) : LoadsType env frontendTls sorryServer .null .null
  | proxy {p : Protos.Proxy} (hheader : p.proxyHeader = true → p.backendTls = none)
    (hfrontend : ∀ pb, frontendTls = some pb → pb.Loads env)
    (hbackend : ∀ pb, p.backendTls = some pb → pb.Loads env) :
    LoadsType env frontendTls sorryServer (.proxy p)
      (.proxy p.addr p.proxyHeader frontendTls p.backendTls sorryServer)
  | pass {path : String} (hfrontend : ∀ pb, frontendTls = some pb → pb.Loads env) :
    LoadsType env frontendTls sorryServer (.pass path) (.pass path frontendTls sorryServer)

/-- A backend message: its sorry server, if there is one, has none of its own. -/
inductive LoadsBackend (env : LoadEnv) (pb : Protos.Backend) : Backend → Prop
  | alone {be : Protos.BackendType} {backend : Backend} (hfallback : pb.sorryServer = none)
    (hbe : pb.backendType = some be) (hloads : LoadsType env pb.frontendTls none be backend) :
    LoadsBackend env pb backend
  | withSorry {be sorryType : Protos.BackendType} {s : Protos.Backend} {loaded backend : Backend}
    (hfallback : pb.sorryServer = some s) (hbe : pb.backendType = some be)
    (hlast : s.sorryServer = none) (htype : s.backendType = some sorryType)
    (hloaded : LoadsType env s.frontendTls none sorryType loaded)
    (hloads : LoadsType env pb.frontendTls (some loaded) be backend) : LoadsBackend env pb backend

/-- A rule message. -/
structure LoadsRule (env : LoadEnv) (pb : Protos.Rule) (isDefault : Bool) (rule : Rule) : Prop where
  re : if isDefault then pb.regex = none ∧ rule.re = fun _ => true
    else ∃ re, pb.regex = some re ∧ env.compileFullMatch re = .ok rule.re
  acl : pb.acl.elim (.ok ⟨[], .accept⟩) (loadAcl env.toLoadEnv) = .ok rule.acl
  backend : ∃ backend, pb.backend = some backend ∧ LoadsBackend env backend rule.backend
  timeout : rule.timeout = optMillis pb.maxLifetimeMs

/-- A configuration message. -/
structure LoadsConfig (env : LoadEnv) (pb : Protos.SniConfig) (config : LoadedConfig) : Prop where
  default : ∃ default, pb.default = some default ∧ LoadsRule env default true config.default
  rules : List.Forall₂ (fun rule loaded => LoadsRule env rule false loaded) pb.rules config.rules
  maxLifetime : config.maxLifetime = optMillis pb.maxLifetimeMs
  handshakeTimeout : config.handshakeTimeout = optMillis pb.handshakeTimeoutMs

section Accepts

variable {env : LoadEnv}

/-- The roots are accepted when each of them is. -/
theorem addRoots_eq_ok_iff {path : String} {certs : List Bytes} :
    addRoots env path certs = .ok () ↔ ∀ cert ∈ certs, env.addRoot cert = .ok () := by
  induction certs with
  | nil => simp [addRoots]
  | cons cert certs ih =>
    simp only [addRoots, except_bind_eq_ok_iff, mapError_eq_ok, ih, List.forall_mem_cons]
    constructor
    · rintro ⟨⟨⟩, hcert, hcerts⟩
      exact ⟨hcert, hcerts⟩
    · rintro ⟨hcert, hcerts⟩
      exact ⟨(), hcert, hcerts⟩

/-- Client certificates are checked only where a file of roots is given, which must load. -/
theorem loadVerifier_eq_ok_iff {mtlsCa : String} :
    loadVerifier env mtlsCa = .ok () ↔ (mtlsCa ≠ "" → ∃ roots, env.loadCerts mtlsCa = .ok roots ∧
      (∀ root ∈ roots, env.addRoot root = .ok ()) ∧ env.buildVerifier roots = .ok ()) := by
  unfold loadVerifier loadRootStore
  split
  · simp [*]
  · rename_i hca
    simp only [except_bind_eq_ok_iff, mapError_eq_ok]
    constructor
    · rintro ⟨roots, ⟨certs, hcerts, ⟨⟩, hroots, hret⟩, hbuild⟩ -
      obtain rfl : certs = roots := Except.ok.inj hret
      exact ⟨certs, hcerts, addRoots_eq_ok_iff.mp hroots, hbuild⟩
    · intro h
      obtain ⟨roots, hroots, hadd, hbuild⟩ := h hca
      exact ⟨roots, ⟨roots, hroots, (), addRoots_eq_ok_iff.mpr hadd, rfl⟩, hbuild⟩

/-- The TLS of a frontend is accepted when it loads, and is kept as it is. -/
theorem loadTls_eq_ok_iff {pb loaded : Option FrontendTls} :
    loadTls env pb = .ok loaded ↔ loaded = pb ∧ ∀ tls, pb = some tls → tls.Loads env := by
  cases pb with
  | none => simp [loadTls, eq_comm]
  | some tls =>
    simp only [loadTls, except_bind_eq_ok_iff]
    constructor
    · rintro ⟨certs, hcerts, key, hkey, ⟨⟩, hverifier, ⟨⟩, hsingle, hret⟩
      cases hret
      refine ⟨rfl, fun tls' htls' => ?_⟩
      cases htls'
      exact ⟨⟨certs, key, hcerts, hkey, hsingle⟩, loadVerifier_eq_ok_iff.mp hverifier⟩
    · rintro ⟨rfl, hloads⟩
      obtain ⟨⟨certs, key, hcerts, hkey, hsingle⟩, hmtls⟩ := hloads tls rfl
      exact ⟨certs, hcerts, key, hkey, (), loadVerifier_eq_ok_iff.mpr hmtls, (), hsingle, rfl⟩

/-- So is the TLS of a backend. -/
theorem loadBackendTls_eq_ok_iff {pb loaded : BackendTls} :
    loadBackendTls env pb = .ok loaded ↔ loaded = pb ∧ pb.Loads env := by
  unfold loadBackendTls
  split
  · rename_i hboth
    refine ⟨nofun, fun ⟨_, hloads⟩ => absurd (propext hloads.both) hboth⟩
  rename_i hboth
  have hboth : pb.certFile = "" ↔ pb.keyFile = "" := Eq.to_iff (not_not.mp hboth)
  split
  · rename_i hcert
    constructor
    · intro hret
      cases hret
      exact ⟨rfl, hboth, fun hne => absurd hcert hne⟩
    · rintro ⟨rfl, -⟩
      rfl
  · rename_i hcert
    simp only [except_bind_eq_ok_iff, mapError_eq_ok]
    constructor
    · rintro ⟨certs, hcerts, key, hkey, ⟨⟩, hauth, hret⟩
      cases hret
      exact ⟨rfl, hboth, fun _ => ⟨certs, key, hcerts, hkey, hauth⟩⟩
    · rintro ⟨rfl, hloads⟩
      obtain ⟨certs, key, hcerts, hkey, hauth⟩ := hloads.cert hcert
      exact ⟨certs, hcerts, key, hkey, (), hauth, rfl⟩

/-- A backend without TLS has nothing to load. -/
theorem transpose_loadBackendTls_eq_ok_iff {pb loaded : Option BackendTls} :
    transpose (pb.map (loadBackendTls env)) = .ok loaded ↔
      loaded = pb ∧ ∀ tls, pb = some tls → tls.Loads env := by
  cases pb with
  | none => simp [transpose, eq_comm]
  | some tls =>
    have hload : ∀ loaded, loadBackendTls env tls = .ok loaded ↔ loaded = tls ∧ tls.Loads env :=
      fun _ => loadBackendTls_eq_ok_iff
    rw [Option.map_some]
    generalize loadBackendTls env tls = result at hload
    cases result with
    | error e =>
      refine ⟨nofun, fun ⟨_, hloads⟩ => ?_⟩
      cases (hload tls).mpr ⟨rfl, hloads tls rfl⟩
    | ok tls' =>
      obtain ⟨rfl, hloads⟩ := (hload tls').mp rfl
      constructor
      · intro hret
        cases hret
        refine ⟨rfl, fun tls htls => ?_⟩
        cases htls
        exact hloads
      · rintro ⟨rfl, -⟩
        rfl

/-- The type of a backend is accepted exactly as `LoadsType` says. -/
theorem loadBackendType_eq_ok_iff {be : Protos.BackendType} {frontendTls : Option FrontendTls}
    {sorryServer : Option Backend} {backend : Backend} :
    loadBackendType env be frontendTls sorryServer = .ok backend ↔
      LoadsType env frontendTls sorryServer be backend := by
  cases be with
  | null =>
    unfold loadBackendType
    cases sorryServer with
    | none =>
      constructor
      · intro hret
        cases hret
        exact .null rfl
      · intro h
        cases h
        rfl
    | some s =>
      refine ⟨nofun, fun h => ?_⟩
      cases h with
      | null hfallback => cases hfallback
  | proxy p =>
    unfold loadBackendType
    dsimp only
    split
    · rename_i hboth
      refine ⟨nofun, fun h => ?_⟩
      cases h with
      | proxy hheader =>
        rw [hheader hboth.1] at hboth
        cases hboth.2
    rename_i hboth
    have hheader : p.proxyHeader = true → p.backendTls = none := fun hheader =>
      Option.not_isSome_iff_eq_none.mp fun hsome => hboth ⟨hheader, hsome⟩
    simp only [except_bind_eq_ok_iff, loadTls_eq_ok_iff, transpose_loadBackendTls_eq_ok_iff]
    constructor
    · rintro ⟨_, ⟨rfl, hfrontend⟩, _, ⟨rfl, hbackend⟩, hret⟩
      cases hret
      exact .proxy hheader hfrontend hbackend
    · intro h
      cases h with
      | proxy _ hfrontend hbackend => exact ⟨_, ⟨rfl, hfrontend⟩, _, ⟨rfl, hbackend⟩, rfl⟩
  | pass path =>
    simp only [loadBackendType, except_bind_eq_ok_iff, loadTls_eq_ok_iff]
    constructor
    · rintro ⟨_, ⟨rfl, hfrontend⟩, hret⟩
      cases hret
      exact .pass hfrontend
    · intro h
      cases h with
      | pass hfrontend => exact ⟨_, ⟨rfl, hfrontend⟩, rfl⟩

/-- A backend is accepted when it has a type, and its type and sorry server are. -/
theorem loadBackend_eq_ok_iff {pb : Protos.Backend} {backend : Backend} :
    (∃ be, pb.backendType = some be ∧
      loadBackend env be pb.frontendTls pb.sorryServer = .ok backend) ↔
      LoadsBackend env pb backend := by
  unfold loadBackend
  constructor
  · rintro ⟨be, hbe, h⟩
    split at h
    · rename_i hfallback
      exact .alone hfallback hbe (loadBackendType_eq_ok_iff.mp h)
    · rename_i s hfallback
      split at h
      · cases h
      rename_i hlast
      simp only [except_bind_eq_ok_iff, okOr_eq_ok_iff, loadBackendType_eq_ok_iff] at h
      obtain ⟨sorryType, htype, loaded, hloaded, hloads⟩ := h
      exact .withSorry hfallback hbe (Option.not_isSome_iff_eq_none.mp hlast) htype hloaded hloads
  · intro h
    cases h with
    | alone hfallback hbe hloads =>
      refine ⟨_, hbe, ?_⟩
      rw [hfallback]
      exact loadBackendType_eq_ok_iff.mpr hloads
    | withSorry hfallback hbe hlast htype hloaded hloads =>
      refine ⟨_, hbe, ?_⟩
      rw [hfallback]
      simp only [hlast, Option.isSome_none, Bool.false_eq_true, if_false, except_bind_eq_ok_iff,
        okOr_eq_ok_iff, loadBackendType_eq_ok_iff]
      exact ⟨_, htype, _, hloaded, hloads⟩

/-- A rule is accepted when its regex, its ACL and its backend are. -/
theorem loadRule_eq_ok_iff {pb : Protos.Rule} {isDefault : Bool} {rule : Rule} :
    loadRule env pb isDefault = .ok rule ↔ LoadsRule env pb isDefault rule := by
  have hregex : ∀ re, loadRegex env pb isDefault = .ok re ↔
      if isDefault then pb.regex = none ∧ re = fun _ => true
      else ∃ pattern, pb.regex = some pattern ∧ env.compileFullMatch pattern = .ok re := by
    intro re
    cases isDefault with
    | true =>
      cases hpattern : pb.regex with
      | none => simp [loadRegex, hpattern, eq_comm]
      | some pattern => simp [loadRegex, hpattern]
    | false => simp [loadRegex, except_bind_eq_ok_iff, okOr_eq_ok_iff]
  simp only [loadRule, except_bind_eq_ok_iff, okOr_eq_ok_iff]
  constructor
  · rintro ⟨re, hre, acl, hacl, backend, hbackend, be, hbe, loaded, hloaded, hret⟩
    cases hret
    exact ⟨(hregex re).mp hre, hacl,
      ⟨backend, hbackend, loadBackend_eq_ok_iff.mp ⟨be, hbe, hloaded⟩⟩, rfl⟩
  · rintro ⟨hre, hacl, ⟨backend, hbackend, hloads⟩, htimeout⟩
    obtain ⟨be, hbe, hloaded⟩ := loadBackend_eq_ok_iff.mpr hloads
    refine ⟨_, (hregex _).mpr hre, _, hacl, backend, hbackend, be, hbe, _, hloaded, ?_⟩
    rw [← htimeout]
    rfl

/-- A configuration is accepted when its rules and its default are. -/
theorem loadConfig_eq_ok {pb : Protos.SniConfig} {config : LoadedConfig} :
    loadConfig env pb = .ok config ↔ LoadsConfig env pb config := by
  simp only [loadConfig, except_bind_eq_ok_iff, okOr_eq_ok_iff, loadRule_eq_ok_iff, mapM_eq_ok_iff]
  constructor
  · rintro ⟨default, hdefault, loaded, hloaded, rules, hrules, hret⟩
    cases hret
    exact ⟨⟨default, hdefault, hloaded⟩, hrules, rfl, rfl⟩
  · rintro ⟨⟨default, hdefault, hloaded⟩, hrules, hlifetime, htimeout⟩
    refine ⟨default, hdefault, _, hloaded, _, hrules, ?_⟩
    rw [← hlifetime, ← htimeout]
    rfl

/-- **Exactly these messages are accepted.** -/
theorem loadConfig_accepts_exactly (env : LoadEnv) (pb : Protos.SniConfig) :
    (∀ config, loadConfig env pb = .ok config ↔ LoadsConfig env pb config) ∧
      ((∃ e, loadConfig env pb = .error e) ↔ ¬∃ config, LoadsConfig env pb config) := by
  refine ⟨fun config => loadConfig_eq_ok, ?_⟩
  cases h : loadConfig env pb with
  | error e =>
    refine ⟨fun _ => ?_, fun _ => ⟨e, rfl⟩⟩
    rintro ⟨config, hloads⟩
    cases h.symm.trans (loadConfig_eq_ok.mpr hloads)
  | ok config =>
    refine ⟨nofun, fun hnone => ?_⟩
    exact absurd ⟨config, loadConfig_eq_ok.mp h⟩ hnone

/-! ## What a client is tried at -/

/-- A backend whose files have been loaded, and that is not asked for a PROXY line inside of
TLS. -/
inductive Backend.Ready (env : LoadEnv) : Backend → Prop
  | null : Ready env .null
  | pass {path : String} {frontendTls : Option FrontendTls} {sorryServer : Option Backend}
    (hfrontend : ∀ tls, frontendTls = some tls → tls.Loads env) :
    Ready env (.pass path frontendTls sorryServer)
  | proxy {addr : String} {proxyHeader : Bool} {frontendTls : Option FrontendTls}
    {backendTls : Option BackendTls} {sorryServer : Option Backend}
    (hheader : proxyHeader = true → backendTls = none)
    (hfrontend : ∀ tls, frontendTls = some tls → tls.Loads env)
    (hbackend : ∀ tls, backendTls = some tls → tls.Loads env) :
    Ready env (.proxy addr proxyHeader frontendTls backendTls sorryServer)

/-- A backend that was loaded is ready, with the sorry server it was given. -/
theorem LoadsType.ready {frontendTls : Option FrontendTls} {sorryServer : Option Backend}
    {be : Protos.BackendType} {backend : Backend}
    (h : LoadsType env frontendTls sorryServer be backend) :
    backend.Ready env ∧ backend.sorryServer = sorryServer := by
  cases h with
  | null hfallback => exact ⟨.null, hfallback.symm⟩
  | proxy hheader hfrontend hbackend => exact ⟨.proxy hheader hfrontend hbackend, rfl⟩
  | pass hfrontend => exact ⟨.pass hfrontend, rfl⟩

/-- A loaded backend is ready, and so is its sorry server, which is the last one. -/
theorem LoadsBackend.ready {pb : Protos.Backend} {backend : Backend}
    (h : LoadsBackend env pb backend) :
    backend.Ready env ∧
      ∀ s, backend.sorryServer = some s → s.Ready env ∧ s.sorryServer = none := by
  cases h with
  | alone hfallback hbe hloads =>
    obtain ⟨hready, hnone⟩ := hloads.ready
    refine ⟨hready, fun s hs => ?_⟩
    cases hnone.symm.trans hs
  | withSorry hfallback hbe hlast htype hloaded hloads =>
    obtain ⟨hready, hsome⟩ := hloads.ready
    refine ⟨hready, fun s hs => ?_⟩
    cases hsome.symm.trans hs
    exact hloaded.ready

/-- Attempts at a backend whose sorry server is the last one. -/
theorem Connecting.Tries.attempts_le {c : Connecting} {backend : Backend} {stream : TcpStream}
    {bytes : Bytes} (h : c.Tries backend stream bytes) {P : Backend → Prop} (hbackend : P backend)
    (hfallback : ∀ s, backend.sorryServer = some s → P s ∧ s.sorryServer = none) :
    c.attempts.length ≤ 2 ∧ ∀ a ∈ c.attempts, P a.backend := by
  obtain ⟨rest, hrest⟩ := h.first
  have hchain := h.next
  rw [hrest] at hchain ⊢
  cases rest with
  | nil =>
    refine ⟨by simp, fun a ha => ?_⟩
    cases List.mem_singleton.mp ha
    exact hbackend
  | cons second rest =>
    obtain ⟨hnext, hchain⟩ := List.isChain_cons_cons.mp hchain
    obtain ⟨hsecond, hlast⟩ := hfallback _ hnext
    cases rest with
    | nil =>
      refine ⟨by simp, fun a ha => ?_⟩
      simp only [List.mem_cons, List.not_mem_nil, or_false] at ha
      rcases ha with rfl | rfl
      · exact hbackend
      · exact hsecond
    | cons third rest =>
      obtain ⟨hnext', -⟩ := List.isChain_cons_cons.mp hchain
      cases hlast.symm.trans hnext'

/-- Each loaded rule comes from a rule of the message. -/
theorem exists_of_mem_rules {pbs : List Protos.Rule} {rules : List Rule}
    (h : List.Forall₂ (fun pb rule => LoadsRule env pb false rule) pbs rules) {rule : Rule}
    (hmem : rule ∈ rules) : ∃ pb, LoadsRule env pb false rule := by
  induction h with
  | nil => cases hmem
  | @cons pb rule' pbs rules hrule hrules ih =>
    rcases List.mem_cons.mp hmem with rfl | hmem
    · exact ⟨pb, hrule⟩
    · exact ih hmem

/-- No connection makes more than two attempts, all of them at backends that are ready. -/
theorem LoadsConfig.attempts {pb : Protos.SniConfig} {config : LoadedConfig}
    (hloads : LoadsConfig env pb config) {σ : Type} (tcp : Env σ) (stream : TcpStream)
    (initialBytes : Bytes) :
    (handleConn tcp config.toConfig stream initialBytes).attempts.length ≤ 2 ∧
      ∀ a ∈ (handleConn tcp config.toConfig stream initialBytes).attempts,
        a.backend.Ready env := by
  have hready : ∀ rule, rule ∈ config.rules ∨ rule = config.default → rule.backend.Ready env ∧
      ∀ s, rule.backend.sorryServer = some s → s.Ready env ∧ s.sorryServer = none := by
    rintro rule (hmem | rfl)
    · obtain ⟨pbRule, hrule⟩ := exists_of_mem_rules hloads.rules hmem
      obtain ⟨backend, -, hbackend⟩ := hrule.backend
      exact hbackend.ready
    · obtain ⟨default, -, hrule⟩ := hloads.default
      obtain ⟨backend, -, hbackend⟩ := hrule.backend
      exact hbackend.ready
  have hrouted :
      (routeAndConnect tcp config.toConfig stream initialBytes).connecting.attempts.length ≤ 2 ∧
      ∀ a ∈ (routeAndConnect tcp config.toConfig stream initialBytes).connecting.attempts,
        a.backend.Ready env := by
    rcases routeAndConnect_accept tcp config.toConfig stream initialBytes with
      ⟨e, hfailed⟩ | ⟨peer, rule, unread, bytes, timeout, -, hrule, -, hconnecting⟩
    · rw [hfailed]
      exact ⟨Nat.zero_le _, nofun⟩
    · obtain ⟨hbackend, hfallback⟩ := hready rule hrule
      rw [hconnecting]
      exact (connectOrHandoffBackendWithTimeout_tries timeout).attempts_le hbackend hfallback
  rw [(handleConn_connecting tcp config.toConfig stream initialBytes).1]
  unfold routeWithDeadline
  dsimp only
  split
  · -- the handshake timer leaves a part of the attempts
    refine ⟨(List.length_take_le' _ _).trans hrouted.1, fun a ha => ?_⟩
    exact hrouted.2 a (List.mem_of_mem_take ha)
  · exact hrouted

/-- **At most two backends.** With a configuration that was loaded, a client is tried at no more
than two backends, whatever it sends and whatever the outside does; their certificates and keys
were loaded, and none of them is asked for a PROXY line inside of TLS. -/
theorem handleConn_attempts_loaded {pb : Protos.SniConfig} {config : LoadedConfig}
    (hload : loadConfig env pb = .ok config) {σ : Type} (tcp : Env σ) (stream : TcpStream)
    (initialBytes : Bytes) :
    (handleConn tcp config.toConfig stream initialBytes).attempts.length ≤ 2 ∧
      ∀ a ∈ (handleConn tcp config.toConfig stream initialBytes).attempts,
        a.backend.Ready env :=
  (loadConfig_eq_ok.mp hload).attempts tcp stream initialBytes

end Accepts

/-- Every file, pattern and network is one that can be used. -/
def fileEnv : LoadEnv where
  lookupHost _ := .ok [.v4 0xc0000201 443]
  readToString _ := .ok (List.replicate 32 '0')
  compileFullMatch _ := .ok fun name => name = [0x62]
  parseIpNet _ := .error "invalid IP address syntax"
  loadCerts _ := .ok [[0x30]]
  loadPrivateKey _ := .ok [0x30]
  addRoot _ := .ok ()
  buildVerifier _ := .ok ()
  withSingleCert _ _ := .ok ()
  withClientAuthCert _ _ := .ok ()

/-- A backend with a certificate and a sorry server. -/
def sorryMessage : Protos.SniConfig where
  quicLb := []
  rules := []
  default := some ⟨none, none, some (.mk (some (.proxy ⟨"b:443", true, none⟩))
    (some (.mk (some (.pass "/run/sorry")) none none)) (some ⟨"cert", "key", "ca"⟩)), 0⟩
  maxLifetimeMs := 0
  handshakeTimeoutMs := 1000

/-- A client whose backend cannot be connected is tried at both. -/
theorem handleConn_attempts_loaded_sorry :
    ∃ config, loadConfig fileEnv sorryMessage = .ok config ∧
      (handleConn sampleEnv config.toConfig (sampleStream namedHello)
        [22, 3, 1, 0, 57]).attempts.length = 2 ∧
      ∀ a ∈ (handleConn sampleEnv config.toConfig (sampleStream namedHello)
        [22, 3, 1, 0, 57]).attempts, a.backend.Ready fileEnv := by
  refine ⟨_, rfl, by decide +kernel, ?_⟩
  exact (@handleConn_attempts_loaded fileEnv sorryMessage _ rfl _ sampleEnv _ _).2

end Tcp

end SniRouter
