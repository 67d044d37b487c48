import BucketTransfer.Credential
import BucketTransfer.Text.Blank
import BucketTransfer.Text.Number

/-!
# Settings

What the connector needs to know about the cloud. Each setting has a default and may be given by an
environment variable; a number that cannot be read is left at its default.
-/
namespace BucketTransfer

structure Settings where
  accessKey : String := ""
  secretKey : String := ""
  securityToken : Option String := none
  region : String := "cn-north-4"
  iamEndpoint : String := "https://iam.myhuaweicloud.com"
  storeEndpoint : String := "https://obs.cn-north-4.myhuaweicloud.com"
  retryAttempts : Nat := 3
  retryMinDelay : Nat := 500
  retryMaxDelay : Nat := 10000
  retryFixedDelay : Bool := false
  tokenSeconds : Nat := 1800
  chunkMegabytes : Nat := 500
  connectTimeout : Nat := 10000
  requestTimeout : Nat := 300000
  deleteSecret : Bool := true
  logLevel : String := "info"
  deriving DecidableEq, Repr

namespace Settings

/-- The size of a chunk in bytes: one mebibyte at least, and no more than a word of 64 bits holds.
-/
def chunkBytes (s : Settings) : Nat := min (max s.chunkMegabytes 1 * 1048576) Text.maxU64

def credentials (s : Settings) : Credentials := ⟨s.accessKey, s.secretKey, s.securityToken⟩

open Text in
def display (s : Settings) : String :=
  record "HuaweiCloudConfig" [
    ("access_key_id", quoted s.accessKey),
    ("secret_access_key", redacted),
    ("security_token", optional (s.securityToken.map fun _ => redacted)),
    ("region", quoted s.region),
    ("iam_endpoint", quoted s.iamEndpoint),
    ("obs_endpoint", quoted s.storeEndpoint),
    ("retry_max_attempts", toString s.retryAttempts),
    ("retry_min_delay_ms", toString s.retryMinDelay),
    ("retry_max_delay_ms", toString s.retryMaxDelay),
    ("retry_fixed_delay", truth s.retryFixedDelay),
    ("token_duration_seconds", toString s.tokenSeconds),
    ("chunk_size_mb", toString s.chunkMegabytes),
    ("connect_timeout_ms", toString s.connectTimeout),
    ("request_timeout_ms", toString s.requestTimeout),
    ("delete_secret_on_deprovision", truth s.deleteSecret),
    ("log_level", quoted s.logLevel)]

def toJson (s : Settings) : Json :=
  .object [
    ("accessKeyId", .string s.accessKey),
    ("secretAccessKey", .string s.secretKey),
    ("securityToken", .ofOption s.securityToken),
    ("region", .string s.region),
    ("iamEndpoint", .string s.iamEndpoint),
    ("obsEndpoint", .string s.storeEndpoint),
    ("retryMaxAttempts", .nat s.retryAttempts),
    ("retryMinDelayMs", .nat s.retryMinDelay),
    ("retryMaxDelayMs", .nat s.retryMaxDelay),
    ("retryFixedDelay", .bool s.retryFixedDelay),
    ("tokenDurationSeconds", .nat s.tokenSeconds),
    ("chunkSizeMb", .nat s.chunkMegabytes),
    ("connectTimeoutMs", .nat s.connectTimeout),
    ("requestTimeoutMs", .nat s.requestTimeout),
    ("deleteSecretOnDeprovision", .bool s.deleteSecret),
    ("logLevel", .string s.logLevel)]

open Json Reader in
def reader : Json.Reader Settings :=
  (Fields.and (.required "accessKeyId" string) <|
    .and (.required "secretAccessKey" string) <|
    .and (.nullable "securityToken" string) <|
    .and (.required "region" string) <|
    .and (.required "iamEndpoint" string) <|
    .and (.required "obsEndpoint" string) <|
    .and (.required "retryMaxAttempts" (natural Text.maxU32)) <|
    .and (.required "retryMinDelayMs" (natural Text.maxU64)) <|
    .and (.required "retryMaxDelayMs" (natural Text.maxU64)) <|
    .and (.required "retryFixedDelay" truth) <|
    .and (.required "tokenDurationSeconds" (natural Text.maxU32)) <|
    .and (.required "chunkSizeMb" (natural Text.maxU64)) <|
    .and (.required "connectTimeoutMs" (natural Text.maxU64)) <|
    .and (.required "requestTimeoutMs" (natural Text.maxU64)) <|
    .and (.required "deleteSecretOnDeprovision" truth) <|
    .and (.required "logLevel" string) .none).into
    fun (accessKey, secretKey, securityToken, region, iamEndpoint, storeEndpoint, retryAttempts,
        retryMinDelay, retryMaxDelay, retryFixedDelay, tokenSeconds, chunkMegabytes, connectTimeout,
        requestTimeout, deleteSecret, logLevel, ()) =>
      ⟨accessKey, secretKey, securityToken, region, iamEndpoint, storeEndpoint, retryAttempts,
        retryMinDelay, retryMaxDelay, retryFixedDelay, tokenSeconds, chunkMegabytes, connectTimeout,
        requestTimeout, deleteSecret, logLevel⟩

/-- `1` and `true`, of either case, say yes; all else says no. -/
def saysYes (value : String) : Bool := value == "1" || value.map Char.toLower == "true"

/-- The environment variables that settings are read from. -/
def variableNames : List String :=
  ["HUAWEICLOUD_ACCESS_KEY_ID", "HUAWEICLOUD_SECRET_ACCESS_KEY", "HUAWEICLOUD_SECURITY_TOKEN",
    "HUAWEICLOUD_REGION", "HUAWEICLOUD_IAM_ENDPOINT", "HUAWEICLOUD_OBS_ENDPOINT",
    "OBS_PROVISION_RETRY_ATTEMPTS", "OBS_PROVISION_RETRY_MIN_DELAY_MS",
    "OBS_PROVISION_RETRY_MAX_DELAY_MS", "OBS_PROVISION_RETRY_FIXED", "OBS_TOKEN_DURATION_SECONDS",
    "OBS_CHUNK_SIZE_MB", "OBS_CONNECT_TIMEOUT_MS", "OBS_REQUEST_TIMEOUT_MS",
    "OBS_DELETE_SECRET_ON_DEPROVISION", "LOG_LEVEL"]

/-- The settings that environment variables make. -/
def ofEnvironment (lookup : String → Option String) : Settings :=
  let d : Settings := {}
  let text (name : String) (default : String) : String := (lookup name).getD default
  let number (name : String) (limit default : Nat) : Nat :=
    match lookup name with
    | none => default
    | some v => (Text.readUnsigned 10 limit (Text.trim v).toList).toOption.getD default
  let yes (name : String) (default : Bool) : Bool := ((lookup name).map saysYes).getD default
  { accessKey := text "HUAWEICLOUD_ACCESS_KEY_ID" d.accessKey
    secretKey := text "HUAWEICLOUD_SECRET_ACCESS_KEY" d.secretKey
    securityToken := (lookup "HUAWEICLOUD_SECURITY_TOKEN").filter fun v => !v.isEmpty
    region := text "HUAWEICLOUD_REGION" d.region
    iamEndpoint := text "HUAWEICLOUD_IAM_ENDPOINT" d.iamEndpoint
    storeEndpoint := text "HUAWEICLOUD_OBS_ENDPOINT" d.storeEndpoint
    retryAttempts := number "OBS_PROVISION_RETRY_ATTEMPTS" Text.maxU32 d.retryAttempts
    retryMinDelay := number "OBS_PROVISION_RETRY_MIN_DELAY_MS" Text.maxU64 d.retryMinDelay
    retryMaxDelay := number "OBS_PROVISION_RETRY_MAX_DELAY_MS" Text.maxU64 d.retryMaxDelay
    retryFixedDelay := yes "OBS_PROVISION_RETRY_FIXED" d.retryFixedDelay
    tokenSeconds := number "OBS_TOKEN_DURATION_SECONDS" Text.maxU32 d.tokenSeconds
    chunkMegabytes := number "OBS_CHUNK_SIZE_MB" Text.maxU64 d.chunkMegabytes
    connectTimeout := number "OBS_CONNECT_TIMEOUT_MS" Text.maxU64 d.connectTimeout
    requestTimeout := number "OBS_REQUEST_TIMEOUT_MS" Text.maxU64 d.requestTimeout
    deleteSecret := yes "OBS_DELETE_SECRET_ON_DEPROVISION" d.deleteSecret
    logLevel := text "LOG_LEVEL" d.logLevel }

end Settings

end BucketTransfer
