/-!
# Configuration

Every value comes from an environment variable or a fallback.
-/

namespace AntiEntropator

/-- `std::env::var`, where it succeeds. -/
abbrev Environment := String → Option String

structure LakehouseConfig where
  /-- RustFS S3 endpoint (host-accessible). -/
  s3Endpoint : String
  /-- S3 endpoint as seen from within the Docker network (for Lakekeeper). -/
  s3EndpointInternal : String
  s3AccessKey : String
  s3SecretKey : String
  s3Region : String
  bucket : String
  /-- Iceberg REST catalog endpoint (Lakekeeper). -/
  catalogEndpoint : String
  /-- Warehouse name in Lakekeeper. -/
  warehouse : String
  /-- Lakekeeper project ID (resolved at runtime). -/
  projectId : Option String
  deriving DecidableEq

section Defaults

variable (environment : Environment)

def defaultS3Endpoint : String :=
  (environment "ANTI_ENTROPATOR_S3_ENDPOINT").getD "http://localhost:8200"

def defaultS3EndpointInternal : String :=
  (environment "ANTI_ENTROPATOR_S3_ENDPOINT_INTERNAL").getD "http://rustfs:9000"

def defaultS3AccessKey : String :=
  ((environment "RUSTFS_ACCESS_KEY").or (environment "AWS_ACCESS_KEY_ID")).getD ""

def defaultS3SecretKey : String :=
  ((environment "RUSTFS_SECRET_KEY").or (environment "AWS_SECRET_ACCESS_KEY")).getD ""

def defaultS3Region : String :=
  ((environment "ANTI_ENTROPATOR_S3_REGION").or (environment "AWS_REGION")).getD "eu-central-1"

def defaultBucket : String := (environment "ANTI_ENTROPATOR_BUCKET").getD "anti-entropator"

def defaultCatalogEndpoint : String :=
  (environment "ANTI_ENTROPATOR_CATALOG_ENDPOINT").getD "http://localhost:8100"

def defaultWarehouse : String := (environment "ANTI_ENTROPATOR_WAREHOUSE").getD "anti-entropator"

/-- `LakehouseConfig::default`. -/
def LakehouseConfig.ofEnvironment : LakehouseConfig where
  s3Endpoint := defaultS3Endpoint environment
  s3EndpointInternal := defaultS3EndpointInternal environment
  s3AccessKey := defaultS3AccessKey environment
  s3SecretKey := defaultS3SecretKey environment
  s3Region := defaultS3Region environment
  bucket := defaultBucket environment
  catalogEndpoint := defaultCatalogEndpoint environment
  warehouse := defaultWarehouse environment
  projectId := environment "ANTI_ENTROPATOR_PROJECT_ID"

end Defaults

end AntiEntropator
