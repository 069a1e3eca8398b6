/-
The settings of each part of the service, as they follow from the variables.

A part is loaded whole or not at all: the first of its variables that cannot be read is the failure.
-/
import Depot.Settings.Value
import Depot.Settings.Variables

namespace Depot.Settings

inductive Component where
  | common
  | cleanup
  | storages
  | files
  | logging
  deriving DecidableEq, Repr

abbrev Named := List (String × Value)

def projectFolder : String := "<BASE_DIR>"

def database (v : Variables) (connectionAge : Int) : Value :=
  .table [
    ("ENGINE", .text (v.text "DJANGO_DATABASE_ENGINE" "django.db.backends.sqlite3")),
    ("NAME", .text (v.text "DJANGO_DATABASE_NAME" (projectFolder ++ "/db.sqlite3"))),
    ("USER", .text (v.text "DJANGO_DATABASE_USER" "")),
    ("PASSWORD", .text (v.text "DJANGO_DATABASE_PASSWORD" "")),
    ("HOST", .text (v.text "DJANGO_DATABASE_HOST" "")),
    ("PORT", .text (v.text "DJANGO_DATABASE_PORT" "")),
    ("CONN_MAX_AGE", .number connectionAge)]

def common (v : Variables) : Except Failure Named := do
  let debug ← v.flag "DJANGO_DEBUG" false
  let connectionAge ← v.number "CONN_MAX_AGE" 60
  return [
    ("SECRET_KEY", .text (v.text "DJANGO_SECRET_KEY" "insecure-development-key")),
    ("DEBUG", .flag debug),
    ("ALLOWED_HOSTS", .texts ["localhost", "127.0.0.1"]),
    ("INSTALLED_APPS", .texts ["server.apps.files", "server.apps.history", "server.apps.cleanup"]),
    ("DATABASES", .table [("default", database v connectionAge)]),
    ("DEFAULT_AUTO_FIELD", .text "django.db.models.BigAutoField"),
    ("LANGUAGE_CODE", .text "en-us"),
    ("USE_TZ", .flag true),
    ("TIME_ZONE", .text "UTC")]

/-- how long records are retained, and how many are deleted at a time -/
structure Retention where
  days : Int
  pageSize : Int
  deriving DecidableEq, Repr

def Retention.ofVariables (v : Variables) : Except Failure Retention := do
  let days ← v.number "CLEANUP_RETENTION_DAYS" 5
  let pageSize ← v.number "CLEANUP_PAGE_SIZE" 100
  return ⟨days, pageSize⟩

def cleanup (v : Variables) : Except Failure Named := do
  let r ← Retention.ofVariables v
  return [("CLEANUP_RETENTION_DAYS", .number r.days), ("CLEANUP_PAGE_SIZE", .number r.pageSize)]

def storages (v : Variables) : Named :=
  [("STORAGES", .table [("default", .table [
    ("BACKEND", .text "server.apps.files.infrastructure.storage.FileContentStorage"),
    ("OPTIONS", .table [
      ("bucket_name", .text (v.text "AWS_STORAGE_BUCKET_NAME" "artifacts")),
      ("access_key", .text (v.text "AWS_ACCESS_KEY_ID" "minioadmin")),
      ("secret_key", .text (v.text "AWS_SECRET_ACCESS_KEY" "minioadmin")),
      ("endpoint_url", .optional (v.get? "AWS_S3_ENDPOINT_URL")),
      ("region_name", .text (v.text "AWS_S3_REGION_NAME" "us-east-1")),
      ("file_overwrite", .flag true),
      ("default_acl", .nothing)])])])]

def files (v : Variables) : Named := [
  ("FILES_TABLE_NAME", .text (v.text "FILES_TABLE_NAME" "artifact_files")),
  ("FILES_DIGEST_ALGORITHM", .text (v.text "FILES_DIGEST_ALGORITHM" "sha1")),
  ("FILES_UPLOAD_TEMP_DIR", .optional (v.get? "FILES_UPLOAD_TEMP_DIR"))]

def logging (v : Variables) : Named :=
  [("LOGGING", .table [
    ("version", .number 1),
    ("disable_existing_loggers", .flag false),
    ("formatters", .table [("console", .table [
      ("format", .text "%(asctime)s %(levelname)s %(name)s: %(message)s")])]),
    ("handlers", .table [("console", .table [
      ("class", .text "logging.StreamHandler"),
      ("formatter", .text "console")])]),
    ("loggers", .table [("server", .table [
      ("handlers", .texts ["console"]),
      ("level", .text (v.text "DJANGO_LOG_LEVEL" "INFO")),
      ("propagate", .flag true)])])])]

def Component.load (c : Component) (v : Variables) : Except Failure Named :=
  match c with
  | .common => Settings.common v
  | .cleanup => Settings.cleanup v
  | .storages => .ok (Settings.storages v)
  | .files => .ok (Settings.files v)
  | .logging => .ok (Settings.logging v)

end Depot.Settings
