import Mathlib.Data.List.Perm.Basic
import CollectorFormal.Lib.Outcomes

/-! The TLS settings of a server, and the configuration that loadTLSConfig builds from them.

Reading a file, parsing it and pairing a certificate with its key may each fail. Paths are the cleaned ones. -/

namespace CollectorFormal.Configtls

open Lib

abbrev Bytes := List UInt8

def bytesOf (text : String) : Bytes := text.toUTF8.toList

/-- The verb %q, for a text without characters to escape. -/
def quoted (text : String) : String := "\"" ++ text ++ "\""

structure TPMConfig where
  auth : String
  enabled : Bool
  ownerAuth : String
  path : String

structure Config where
  caFile : String
  caPem : String
  certFile : String
  certPem : String
  cipherSuites : List String
  curvePreferences : List String
  includeInsecureCipherSuites : Bool
  includeSystemCACertsPool : Bool
  keyFile : String
  keyPem : String
  maxVersion : String
  minVersion : String
  reloadInterval : Int
  tpmConfig : TPMConfig

inductive CurveID where
  | curveP256
  | curveP384
  | curveP521
  | x25519
  | x25519MLKEM768
  deriving DecidableEq

def CurveID.asString : CurveID → String
  | curveP256 => "CurveP256"
  | curveP384 => "CurveP384"
  | curveP521 => "CurveP521"
  | x25519 => "X25519"
  | x25519MLKEM768 => "X25519MLKEM768"

/-- The curves, without those that a FIPS build leaves out. -/
def tlsCurveTypes (requirefips : Bool) : List (String × CurveID) :=
  [("P256", .curveP256), ("P384", .curveP384), ("P521", .curveP521)] ++
    if requirefips then [] else [("X25519", .x25519), ("X25519MLKEM768", .x25519MLKEM768)]

def versionTLS10 : UInt16 := 0x0301

def versionTLS11 : UInt16 := 0x0302

def versionTLS12 : UInt16 := 0x0303

def versionTLS13 : UInt16 := 0x0304

def tlsVersions : List (String × UInt16) :=
  [("1.0", versionTLS10), ("1.1", versionTLS11), ("1.2", versionTLS12), ("1.3", versionTLS13)]

def defaultMinTLSVersion : UInt16 := versionTLS12

def defaultMaxTLSVersion : UInt16 := 0

/-- What the standard library and the machine answer while a configuration is loaded. -/
structure Env (Pool Certificate : Type) where
  now : Int
  readFile : String → Except String Bytes
  systemCertPool : Except String (Option Pool)
  newCertPool : Pool
  /-- Without a value when no certificate is found. -/
  appendCertsFromPEM : Pool → Bytes → Option Pool
  zeroCertificate : Certificate
  x509KeyPair : Bytes → Bytes → Except String Certificate
  tpmCertificate : TPMConfig → Bytes → Bytes → Except String Certificate
  cipherSuites : List (String × UInt16)
  insecureCipherSuites : List (String × UInt16)
  requirefips : Bool
  /-- The values of the table in the order in which the map yields them. -/
  allowedCurves : List CurveID
  allowedCurves_perm : allowedCurves.Perm ((tlsCurveTypes requirefips).map (·.2))

/-- The certificate that a server shows, and when it is read again. -/
structure CertReloader (Certificate : Type) where
  tls : Config
  nextReload : Int
  cert : Certificate

inductive ClientAuthType where
  | noClientCert
  | requireAndVerifyClientCert
  deriving DecidableEq

/-- tls.Config, with the reloader R behind GetConfigForClient. -/
structure TLSConfig (Pool Certificate R : Type) where
  rootCAs : Option Pool := none
  getCertificate : Option (CertReloader Certificate) := none
  getClientCertificate : Option (CertReloader Certificate) := none
  minVersion : UInt16 := 0
  maxVersion : UInt16 := 0
  cipherSuites : List UInt16 := []
  curvePreferences : List CurveID := []
  nextProtos : List String := []
  clientCAs : Option Pool := none
  clientAuth : ClientAuthType := .noClientCert
  getConfigForClient : Option R := none

def convertVersion (v : String) (defaultVersion : UInt16) : Except String UInt16 :=
  if v = "" then .ok defaultVersion
  else
    match tlsVersions.lookup v with
    | none => .error ("unsupported TLS version: " ++ quoted v)
    | some val => .ok val

variable {Pool Certificate R : Type}

section loading
variable (env : Env Pool Certificate)

def convertCipherSuites (cipherSuites : List String) (includeInsecure : Bool) : Except String (List UInt16) :=
  let availableSuites := env.cipherSuites ++ if includeInsecure then env.insecureCipherSuites else []
  let errs := (cipherSuites.filter fun suite => (availableSuites.lookup suite).isNone).map fun suite =>
    "invalid TLS cipher suite: " ++ quoted suite
  if errs.isEmpty then .ok (cipherSuites.filterMap (List.lookup · availableSuites)) else .error ("\n".intercalate errs)

def convertCurve (curve : String) : Except String CurveID :=
  match (tlsCurveTypes env.requirefips).lookup curve with
  -- The text names the zero value and not the curve.
  | none => .error ("invalid curve type: CurveID(0). Expected values are [" ++
      " ".intercalate (env.allowedCurves.map CurveID.asString) ++ "]")
  | some curveID => .ok curveID

def convertCurves (curvePreferences : List String) : Except String (List CurveID) := do
  let curvePreferences ← curvePreferences.mapM (convertCurve env)
  return if curvePreferences.isEmpty then env.allowedCurves else curvePreferences

namespace Config
variable (c : Config)

def hasCAFile : Bool := c.caFile ≠ ""

def hasCAPem : Bool := c.caPem ≠ ""

def hasCertFile : Bool := c.certFile ≠ ""

def hasCertPem : Bool := c.certPem ≠ ""

def hasKeyFile : Bool := c.keyFile ≠ ""

def hasKeyPem : Bool := c.keyPem ≠ ""

def hasCert : Bool := c.hasCertFile || c.hasCertPem

def hasKey : Bool := c.hasKeyFile || c.hasKeyPem

def basePool (systemCertPool : Except String (Option Pool)) : Except String Pool :=
  if c.includeSystemCACertsPool then systemCertPool.map (·.getD env.newCertPool) else .ok env.newCertPool

def loadCertPem (certPem : Bytes) : Except String Pool := do
  let certPool ← c.basePool env env.systemCertPool
  match env.appendCertsFromPEM certPool certPem with
  | none => .error "failed to parse cert"
  | some certPool => return certPool

def loadCertFile (certPath : String) : Except String Pool := do
  let certPem ← (env.readFile certPath).mapError (("failed to load cert " ++ certPath ++ ": ") ++ ·)
  c.loadCertPem env certPem

def loadCACertPool : Except String (Option Pool) :=
  if c.hasCAFile && c.hasCAPem then
    .error "failed to load CA CertPool: provide either a CA file or the PEM-encoded string, but not both"
  else if c.hasCAFile then
    ((c.loadCertFile env c.caFile).mapError ("failed to load CA CertPool File: " ++ ·)).map some
  else if c.hasCAPem then
    ((c.loadCertPem env (bytesOf c.caPem)).mapError ("failed to load CA CertPool PEM: " ++ ·)).map some
  else .ok none

def loadCertificate : Except String Certificate := do
  if c.hasCert != c.hasKey then
    throw "for auth via TLS, provide both certificate and key, or neither"
  if !c.hasCert && !c.hasKey then
    return env.zeroCertificate
  if c.hasCertFile && c.hasCertPem then
    throw "for auth via TLS, provide either a certificate or the PEM-encoded string, but not both"
  if c.hasKeyFile && c.hasKeyPem then
    throw "for auth via TLS, provide either a key or the PEM-encoded string, but not both"
  let certPem ← if c.hasCertFile then env.readFile c.certFile else .ok (bytesOf c.certPem)
  let keyPem ← if c.hasKeyFile then env.readFile c.keyFile else .ok (bytesOf c.keyPem)
  if c.tpmConfig.enabled then
    (env.tpmCertificate c.tpmConfig keyPem certPem).mapError ("failed to load private key from TPM: " ++ ·)
  else
    (env.x509KeyPair certPem keyPem).mapError ("failed to load TLS cert and key PEMs: " ++ ·)

def newCertReloader : Except String (CertReloader Certificate) := do
  let cert ← c.loadCertificate env
  return ⟨c, env.now + c.reloadInterval, cert⟩

def certSource : Except String (Option (CertReloader Certificate)) :=
  if c.hasCert || c.hasKey then
    ((c.newCertReloader env).mapError ("failed to load TLS cert and key: " ++ ·)).map some
  else .ok none

def loadTLSConfig : Except String (TLSConfig Pool Certificate R) := do
  let certPool ← c.loadCACertPool env
  let certReloader ← c.certSource env
  let minTLS ← (convertVersion c.minVersion defaultMinTLSVersion).mapError ("invalid TLS min_version: " ++ ·)
  let maxTLS ← (convertVersion c.maxVersion defaultMaxTLSVersion).mapError ("invalid TLS max_version: " ++ ·)
  let cipherSuites ← convertCipherSuites env c.cipherSuites c.includeInsecureCipherSuites
  let curvePreferences ← convertCurves env c.curvePreferences
  return {
    rootCAs := certPool
    getCertificate := certReloader
    getClientCertificate := certReloader
    minVersion := minTLS
    maxVersion := maxTLS
    cipherSuites := cipherSuites
    curvePreferences := curvePreferences }

end Config

end loading

end CollectorFormal.Configtls
