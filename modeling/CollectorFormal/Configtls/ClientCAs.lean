import CollectorFormal.Configtls.Config

/-! The reloader of the file with the client CAs, over the handshakes that a server serves.

The file is read once to identify it and once to parse it, and may have changed in between. -/

namespace CollectorFormal.Configtls

open Lib List

/-- What a handshake finds: the time, the file when it is identified and when it is loaded, and
the pool of the system. -/
structure Reads (Pool : Type) where
  now : Int
  identified : Except String Bytes
  contents : Except String Bytes
  systemCertPool : Except String (Option Pool)

structure ServerConfig where
  config : Config
  clientCAFile : String
  reloadClientCAFile : Bool

/-- The file identity is missing for a file that cannot be read. -/
structure ClientCAsFileReloader (Pool Sum : Type) where
  loader : ServerConfig
  reloadInterval : Int
  certPool : Pool
  lastReloadError : Option String
  lastCheck : Int
  fileID : Option Sum

/-- One second, in nanoseconds. -/
def defaultClientCAsReloadInterval : Int := 1000000000

variable {Pool Certificate Sum S C : Type}

/-- What a call of reloadIfModified did. -/
inductive Visit (Pool : Type) where
  | skipped
  | unchanged
  | loaded (result : Except String Pool)

def Visit.checked : Visit Pool → Bool
  | skipped => false
  | _ => true

def Visit.attempted : Visit Pool → Bool
  | loaded _ => true
  | _ => false

def Visit.pool? : Visit Pool → Option Pool
  | loaded (.ok pool) => some pool
  | _ => none

abbrev ServerTLS (Pool Certificate Sum : Type) := TLSConfig Pool Certificate (ClientCAsFileReloader Pool Sum)

/-- A handshake with what the reloader did and the configuration it gave out. -/
structure Served (Pool Certificate Sum : Type) where
  reads : Reads Pool
  visit : Visit Pool
  config : ServerTLS Pool Certificate Sum

section definitions
variable (env : Env Pool Certificate)

def Config.loadCert (c : Config) (reads : Reads Pool) (caPath : String) : Except String Pool := do
  let caPEM ← reads.contents.mapError (("failed to load CA " ++ caPath ++ ": ") ++ ·)
  let certPool ← c.basePool env reads.systemCertPool
  match env.appendCertsFromPEM certPool caPEM with
  | none => .error ("failed to parse CA " ++ caPath)
  | some certPool => return certPool

def ServerConfig.loadClientCAFile (c : ServerConfig) (reads : Reads Pool) : Except String Pool :=
  c.config.loadCert env reads c.clientCAFile

variable (sum256 : Bytes → Sum)

def identifyFile : Except String Bytes → Option Sum
  | .error _ => none
  | .ok contents => some (sum256 contents)

def newClientCAsReloader (loader : ServerConfig) (reads : Reads Pool) :
    Except String (ClientCAsFileReloader Pool Sum) := do
  let fileID := identifyFile sum256 reads.identified
  let certPool ← (loader.loadClientCAFile env reads).mapError ("failed to load client CA CertPool: " ++ ·)
  return ⟨loader, defaultClientCAsReloadInterval, certPool, none, reads.now, fileID⟩

def ServerConfig.loadTLSConfig (c : ServerConfig) (reads : Reads Pool) :
    Except String (ServerTLS Pool Certificate Sum) := do
  let tlsCfg ← (c.config.loadTLSConfig env).mapError ("failed to load TLS config: " ++ ·)
  if c.clientCAFile = "" then return tlsCfg
  let reloader ← newClientCAsReloader env sum256 c reads
  return { tlsCfg with
    getConfigForClient := if c.reloadClientCAFile then some reloader else none
    clientCAs := some reloader.certPool
    clientAuth := .requireAndVerifyClientCert }

namespace ClientCAsFileReloader
variable [DecidableEq Sum]

def reloadIfModified (r : ClientCAsFileReloader Pool Sum) (reads : Reads Pool) :
    ClientCAsFileReloader Pool Sum × Visit Pool :=
  if reads.now - r.lastCheck < r.reloadInterval then (r, .skipped)
  else
    let fileID := identifyFile sum256 reads.identified
    if fileID = r.fileID then ({ r with lastCheck := reads.now }, .unchanged)
    else
      match r.loader.loadClientCAFile env reads with
      | .error err => ({ r with lastCheck := reads.now, fileID, lastReloadError := some err }, .loaded (.error err))
      | .ok certPool =>
        ({ r with lastCheck := reads.now, fileID, certPool, lastReloadError := none }, .loaded (.ok certPool))

/-- The configuration for one handshake, with the fields that the code copies. -/
def getClientConfig (original : ServerTLS Pool Certificate Sum) (r : ClientCAsFileReloader Pool Sum)
    (reads : Reads Pool) : ClientCAsFileReloader Pool Sum × Served Pool Certificate Sum :=
  let reloaded := r.reloadIfModified env sum256 reads
  (reloaded.1, ⟨reads, reloaded.2, {
    rootCAs := original.rootCAs
    getCertificate := original.getCertificate
    getClientCertificate := original.getClientCertificate
    minVersion := original.minVersion
    maxVersion := original.maxVersion
    nextProtos := original.nextProtos
    clientCAs := some reloaded.1.certPool
    clientAuth := .requireAndVerifyClientCert }⟩)

def serve (original : ServerTLS Pool Certificate Sum) :
    ClientCAsFileReloader Pool Sum → List (Reads Pool) → List (Served Pool Certificate Sum) :=
  outputs (getClientConfig env sum256 original)

end ClientCAsFileReloader

end definitions

/-- The last handshake that looked at the file, or else the load at the start. -/
def lastCheck (created : Reads Pool) (served : List (Served Pool Certificate Sum)) : Reads Pool :=
  ((served.filter (·.visit.checked)).getLast?.map (·.reads)).getD created

def lastLoaded (first : Pool) (served : List (Served Pool Certificate Sum)) : Pool :=
  ((served.filterMap (·.visit.pool?)).getLast?).getD first

def SameContents : Except String Bytes → Except String Bytes → Prop
  | .ok contents, .ok others => contents = others
  | .error _, .error _ => True
  | _, _ => False

def Distinguishes (sum256 : Bytes → Sum) (found other : Except String Bytes) : Prop :=
  ∀ contents others, found = .ok contents → other = .ok others → sum256 contents = sum256 others → contents = others

/-- What a handshake makes of the lists of a configuration, where an empty one stands for the
defaults. -/
structure Reading (S C : Type) where
  cipherSuites : List UInt16 → S
  curvePreferences : List CurveID → C

/-- A handshake has the settings of the configuration that was built first, asks for a client
certificate, and verifies it with the pool that was loaded last. -/
structure Kept (env : Env Pool Certificate) (sum256 : Bytes → Sum) (c : ServerConfig) (reading : Reading S C)
    (built : ServerTLS Pool Certificate Sum) (reloadInterval : Int) (created : Reads Pool) (first : Pool)
    (before : List (Served Pool Certificate Sum)) (served : Served Pool Certificate Sum) : Prop where
  certificate : served.config.getCertificate = built.getCertificate ∧
    served.config.getClientCertificate = built.getClientCertificate
  versions : served.config.minVersion = built.minVersion ∧ served.config.maxVersion = built.maxVersion
  cipherSuites : reading.cipherSuites served.config.cipherSuites = reading.cipherSuites built.cipherSuites
  curvePreferences :
    reading.curvePreferences served.config.curvePreferences = reading.curvePreferences built.curvePreferences
  clientAuth : served.config.clientAuth = .requireAndVerifyClientCert
  clientCAs : served.config.clientCAs = some (lastLoaded first (before ++ [served]))
  checks : served.visit.checked = true ↔ reloadInterval ≤ served.reads.now - (lastCheck created before).now
  attempts : served.visit.attempted = true ↔ served.visit.checked = true ∧
    identifyFile sum256 served.reads.identified ≠ identifyFile sum256 (lastCheck created before).identified
  changes : Distinguishes sum256 served.reads.identified (lastCheck created before).identified →
    (served.visit.attempted = true ↔
      served.visit.checked = true ∧ ¬ SameContents served.reads.identified (lastCheck created before).identified)
  loads : ∀ result, served.visit = .loaded result → result = c.loadClientCAFile env served.reads

section proofs
variable {env : Env Pool Certificate} {sum256 : Bytes → Sum} {created : Reads Pool} {first : Pool}
  {before : List (Served Pool Certificate Sum)} {served : Served Pool Certificate Sum}

theorem identifyFile_eq_iff {found other : Except String Bytes} (distinguishes : Distinguishes sum256 found other) :
    identifyFile sum256 found = identifyFile sum256 other ↔ SameContents found other := by
  cases found with
  | error text =>
    cases other with
    | error | ok => simp [identifyFile, SameContents]
  | ok contents =>
    cases other with
    | error text => simp [identifyFile, SameContents]
    | ok others =>
      simp only [identifyFile, SameContents, Option.some.injEq]
      constructor
      · exact distinguishes contents others rfl rfl
      · intro same
        rw [same]

theorem lastCheck_skipped (skipped : served.visit.checked = false) :
    lastCheck created (before ++ [served]) = lastCheck created before := by
  simp [lastCheck, filter_append, skipped]

theorem lastCheck_checked (checked : served.visit.checked = true) :
    lastCheck created (before ++ [served]) = served.reads := by
  simp [lastCheck, filter_append, checked]

theorem lastLoaded_append :
    lastLoaded first (before ++ [served]) = (served.visit.pool?).getD (lastLoaded first before) := by
  cases loaded : served.visit.pool? with
  | none | some => simp [lastLoaded, filterMap_append, loaded]

structure Tracks (c : ServerConfig) (sum256 : Bytes → Sum) (reloadInterval : Int) (created : Reads Pool)
    (first : Pool) (before : List (Served Pool Certificate Sum)) (r : ClientCAsFileReloader Pool Sum) :
    Prop where
  loader : r.loader = c
  interval : r.reloadInterval = reloadInterval
  checkedAt : r.lastCheck = (lastCheck created before).now
  fileID : r.fileID = identifyFile sum256 (lastCheck created before).identified
  certPool : r.certPool = lastLoaded first before

variable {c : ServerConfig} {reloadInterval : Int} {r : ClientCAsFileReloader Pool Sum}

theorem newClientCAsReloader_tracks {reloader : ClientCAsFileReloader Pool Sum}
    (made : newClientCAsReloader env sum256 c created = .ok reloader) :
    c.loadClientCAFile env created = .ok reloader.certPool ∧
      Tracks c sum256 defaultClientCAsReloadInterval created reloader.certPool
        ([] : List (Served Pool Certificate Sum)) reloader := by
  rcases ok_of_bind made with ⟨certPool, load, made⟩
  cases made
  exact ⟨ok_of_mapError load, rfl, rfl, rfl, rfl, rfl⟩

theorem loadTLSConfig_reloader {tlsCfg : ServerTLS Pool Certificate Sum} (named : c.clientCAFile ≠ "")
    (reload : c.reloadClientCAFile = true) (loaded : c.loadTLSConfig env sum256 created = .ok tlsCfg) :
    ∃ (built : ServerTLS Pool Certificate Sum) (reloader : ClientCAsFileReloader Pool Sum), c.config.loadTLSConfig env = .ok built ∧
      newClientCAsReloader env sum256 c created = .ok reloader ∧
      tlsCfg = { built with
        getConfigForClient := some reloader
        clientCAs := some reloader.certPool
        clientAuth := .requireAndVerifyClientCert } := by
  rcases ok_of_bind loaded with ⟨built, base, loaded⟩
  rw [if_neg named] at loaded
  rcases ok_of_bind loaded with ⟨reloader, made, loaded⟩
  rw [reload] at loaded
  cases loaded
  exact ⟨built, reloader, ok_of_mapError base, made, rfl⟩

variable [DecidableEq Sum]

variable (env) in
inductive Reloads (sum256 : Bytes → Sum) (r : ClientCAsFileReloader Pool Sum) (reads : Reads Pool) :
    ClientCAsFileReloader Pool Sum × Visit Pool → Prop
  | skipped (early : reads.now - r.lastCheck < r.reloadInterval) : Reloads sum256 r reads (r, .skipped)
  | unchanged (due : r.reloadInterval ≤ reads.now - r.lastCheck)
      (same : identifyFile sum256 reads.identified = r.fileID) :
      Reloads sum256 r reads ({ r with lastCheck := reads.now }, .unchanged)
  | failed (due : r.reloadInterval ≤ reads.now - r.lastCheck)
      (changed : identifyFile sum256 reads.identified ≠ r.fileID) {err : String}
      (load : r.loader.loadClientCAFile env reads = .error err) :
      Reloads sum256 r reads ({ r with
        lastCheck := reads.now
        fileID := identifyFile sum256 reads.identified
        lastReloadError := some err }, .loaded (.error err))
  | succeeded (due : r.reloadInterval ≤ reads.now - r.lastCheck)
      (changed : identifyFile sum256 reads.identified ≠ r.fileID) {certPool : Pool}
      (load : r.loader.loadClientCAFile env reads = .ok certPool) :
      Reloads sum256 r reads ({ r with
        lastCheck := reads.now
        fileID := identifyFile sum256 reads.identified
        certPool := certPool
        lastReloadError := none }, .loaded (.ok certPool))

theorem reloadIfModified_reloads (r : ClientCAsFileReloader Pool Sum) (reads : Reads Pool) :
    Reloads env sum256 r reads (r.reloadIfModified env sum256 reads) := by
  unfold ClientCAsFileReloader.reloadIfModified
  by_cases early : reads.now - r.lastCheck < r.reloadInterval
  · rw [if_pos early]
    exact .skipped early
  rw [if_neg early]
  have due := Int.not_lt.mp early
  simp only
  by_cases same : identifyFile sum256 reads.identified = r.fileID
  · rw [if_pos same]
    exact .unchanged due same
  rw [if_neg same]
  cases load : r.loader.loadClientCAFile env reads with
  | error err => exact .failed due same load
  | ok certPool => exact .succeeded due same load

theorem Tracks.step (tracks : Tracks c sum256 reloadInterval created first before r)
    (original : ServerTLS Pool Certificate Sum) (reads : Reads Pool) :
    Tracks c sum256 reloadInterval created first
      (before ++ [(r.getClientConfig env sum256 original reads).2]) (r.getClientConfig env sum256 original reads).1 := by
  unfold ClientCAsFileReloader.getClientConfig
  have reloads := @reloadIfModified_reloads Pool Certificate Sum env sum256 _ r reads
  generalize r.reloadIfModified env sum256 reads = reloaded at reloads ⊢
  cases reloads with
  | skipped early =>
    refine ⟨tracks.loader, tracks.interval, ?_, ?_, ?_⟩
    · rw [lastCheck_skipped rfl]
      exact tracks.checkedAt
    · rw [lastCheck_skipped rfl]
      exact tracks.fileID
    · rw [lastLoaded_append]
      exact tracks.certPool
  | unchanged due same =>
    refine ⟨tracks.loader, tracks.interval, ?_, ?_, ?_⟩
    · rw [lastCheck_checked rfl]
    · rw [lastCheck_checked rfl]
      exact same.symm
    · rw [lastLoaded_append]
      exact tracks.certPool
  | failed due changed load =>
    refine ⟨tracks.loader, tracks.interval, ?_, ?_, ?_⟩
    · rw [lastCheck_checked rfl]
    · rw [lastCheck_checked rfl]
    · rw [lastLoaded_append]
      exact tracks.certPool
  | succeeded due changed load =>
    refine ⟨tracks.loader, tracks.interval, ?_, ?_, ?_⟩
    · rw [lastCheck_checked rfl]
    · rw [lastCheck_checked rfl]
    · rw [lastLoaded_append]
      rfl

variable (env) in
theorem Tracks.visit (tracks : Tracks c sum256 reloadInterval created first before r) (reads : Reads Pool) :
    let visit := (r.reloadIfModified env sum256 reads).2
    (visit.checked = true ↔ reloadInterval ≤ reads.now - (lastCheck created before).now) ∧
      (visit.attempted = true ↔ visit.checked = true ∧
        identifyFile sum256 reads.identified ≠ identifyFile sum256 (lastCheck created before).identified) ∧
      ∀ result, visit = .loaded result → result = c.loadClientCAFile env reads := by
  have reloads := @reloadIfModified_reloads Pool Certificate Sum env sum256 _ r reads
  rw [← tracks.fileID, ← tracks.checkedAt, ← tracks.interval, ← tracks.loader]
  generalize r.reloadIfModified env sum256 reads = reloaded at reloads ⊢
  cases reloads with
  | skipped early => simp [Visit.checked, Visit.attempted, early]
  | unchanged due same => simp [Visit.checked, Visit.attempted, due, same]
  | failed due changed load | succeeded due changed load => simp [Visit.checked, Visit.attempted, due, changed, load]

theorem Tracks.kept_iff (tracks : Tracks c sum256 reloadInterval created first before r) (reading : Reading S C)
    {built original : ServerTLS Pool Certificate Sum} (certificate : original.getCertificate = built.getCertificate)
    (clientCertificate : original.getClientCertificate = built.getClientCertificate)
    (minVersion : original.minVersion = built.minVersion) (maxVersion : original.maxVersion = built.maxVersion)
    (reads : Reads Pool) :
    Kept env sum256 c reading built reloadInterval created first before
        (r.getClientConfig env sum256 original reads).2 ↔
      reading.cipherSuites built.cipherSuites = reading.cipherSuites [] ∧
        reading.curvePreferences built.curvePreferences = reading.curvePreferences [] := by
  constructor
  · intro kept
    exact ⟨kept.cipherSuites.symm, kept.curvePreferences.symm⟩
  · intro defaults
    rcases defaults with ⟨suites, curves⟩
    rcases tracks.visit env reads with ⟨checks, attempts, loads⟩
    refine ⟨⟨certificate, clientCertificate⟩, ⟨minVersion, maxVersion⟩, suites.symm, curves.symm, rfl, ?_, checks,
      attempts, ?_, loads⟩
    · exact congrArg some (tracks.step original reads).certPool
    · intro distinguishes
      rwa [← identifyFile_eq_iff distinguishes]

/-- Every handshake of a server that reloads its client CAs keeps the configuration iff the cipher suites and the
curve preferences built from it mean what no lists at all mean. -/
theorem reload_keeps_iff (reading : Reading S C) {tlsCfg : ServerTLS Pool Certificate Sum}
    (named : c.clientCAFile ≠ "") (reload : c.reloadClientCAFile = true)
    (loaded : c.loadTLSConfig env sum256 created = .ok tlsCfg) :
    ∃ (built : ServerTLS Pool Certificate Sum) (reloader : ClientCAsFileReloader Pool Sum),
      c.config.loadTLSConfig env = .ok built ∧ tlsCfg.getConfigForClient = some reloader ∧
      c.loadClientCAFile env created = .ok reloader.certPool ∧
      ∀ (handshakes : List (Reads Pool)) (before after : List (Served Pool Certificate Sum)) served,
        reloader.serve env sum256 tlsCfg handshakes = before ++ served :: after →
        (Kept env sum256 c reading built defaultClientCAsReloadInterval created reloader.certPool before served ↔
          reading.cipherSuites built.cipherSuites = reading.cipherSuites [] ∧
            reading.curvePreferences built.curvePreferences = reading.curvePreferences []) := by
  rcases loadTLSConfig_reloader named reload loaded with ⟨built, reloader, base, made, rfl⟩
  rcases @newClientCAsReloader_tracks Pool Certificate Sum env sum256 created c reloader made with ⟨load, starts⟩
  refine ⟨built, reloader, base, rfl, load, ?_⟩
  intro handshakes before after served split
  rcases outputs_tracked _ starts (fun done r reads tracks => tracks.step _ reads) split with ⟨r, reads, tracks, rfl⟩
  exact tracks.kept_iff reading rfl rfl rfl rfl reads

end proofs

section instances

def oneFile : Env Bytes Unit where
  now := 0
  readFile := fun _ => .ok [1]
  systemCertPool := .ok none
  newCertPool := []
  appendCertsFromPEM := fun pool pem => if pem.isEmpty then none else some (pool ++ pem)
  zeroCertificate := ()
  x509KeyPair := fun _ _ => .ok ()
  tpmCertificate := fun _ _ _ => .error "TPM path is not set"
  cipherSuites := [("TLS_ECDHE_RSA_WITH_AES_128_GCM_SHA256", 0xc02f)]
  insecureCipherSuites := []
  requirefips := false
  allowedCurves := (tlsCurveTypes false).map (·.2)
  allowedCurves_perm := .refl _

def reloadingServer (cipherSuites : List String) : ServerConfig where
  config := {
    caFile := ""
    caPem := ""
    certFile := "server.crt"
    certPem := ""
    cipherSuites := cipherSuites
    curvePreferences := []
    includeInsecureCipherSuites := false
    includeSystemCACertsPool := false
    keyFile := "server.key"
    keyPem := ""
    maxVersion := ""
    minVersion := ""
    reloadInterval := 0
    tpmConfig := ⟨"", false, "", ""⟩ }
  clientCAFile := "ca.crt"
  reloadClientCAFile := true

def readAt (now : Int) (contents : Bytes) : Reads Bytes := ⟨now, .ok contents, .ok contents, .ok none⟩

/-- Empty lists read as the suites and the curves of the machine. -/
def machineDefaults : Reading (List UInt16) (List CurveID) where
  cipherSuites := fun suites => if suites.isEmpty then [0xc02f] else suites
  curvePreferences := fun curves => if curves.isEmpty then (tlsCurveTypes false).map (·.2) else curves

/-- Without cipher suites and curves in the settings, every handshake keeps the configuration. -/
theorem reload_keeps_defaults :
    ∃ (built tlsCfg : ServerTLS Bytes Unit Bytes) (reloader : ClientCAsFileReloader Bytes Bytes),
      (reloadingServer []).config.loadTLSConfig oneFile = .ok built ∧
      (reloadingServer []).loadTLSConfig oneFile id (readAt 0 [7]) = .ok tlsCfg ∧
      tlsCfg.getConfigForClient = some reloader ∧
      ∀ handshakes before after served, reloader.serve oneFile id tlsCfg handshakes = before ++ served :: after →
        Kept oneFile id (reloadingServer []) machineDefaults built defaultClientCAsReloadInterval (readAt 0 [7])
          reloader.certPool before served := by
  have loaded : (reloadingServer []).loadTLSConfig oneFile id (readAt 0 [7]) = .ok _ := rfl
  rcases reload_keeps_iff machineDefaults (by decide) rfl loaded with ⟨built, reloader, base, held, _, kept⟩
  refine ⟨built, _, reloader, base, loaded, held, ?_⟩
  cases base
  intro handshakes before after served split
  exact (kept handshakes before after served split).mpr ⟨rfl, rfl⟩

/-- The cipher suite of the settings is missing at the first handshake. -/
theorem reload_drops_cipherSuites :
    ∃ (built tlsCfg : ServerTLS Bytes Unit Bytes) (reloader : ClientCAsFileReloader Bytes Bytes),
      (reloadingServer ["TLS_ECDHE_RSA_WITH_AES_128_GCM_SHA256"]).config.loadTLSConfig oneFile = .ok built ∧
      (reloadingServer ["TLS_ECDHE_RSA_WITH_AES_128_GCM_SHA256"]).loadTLSConfig oneFile id (readAt 0 [7]) = .ok tlsCfg ∧
      tlsCfg.getConfigForClient = some reloader ∧ built.cipherSuites = [0xc02f] ∧
      (reloader.serve oneFile id tlsCfg [readAt 5 [7]]).map (·.config.cipherSuites) = [[]] :=
  ⟨_, _, _, rfl, rfl, rfl, rfl, rfl⟩

end instances

end CollectorFormal.Configtls
