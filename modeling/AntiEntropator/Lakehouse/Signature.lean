import AntiEntropator.Lakehouse.Client

/-!
# AWS Signature V4

Minimal signing for S3 bucket operations: requests with an empty body, no query
and three signed headers.
-/

namespace AntiEntropator.Lakehouse

def s3CredentialScope (dateStamp region service : String) : String :=
  dateStamp ++ "/" ++ region ++ "/" ++ service ++ "/aws4_request"

/-- `trim_start_matches`, with as many rounds as the text can have. -/
def trimStartMatches (start : List Char) : Nat → List Char → List Char
  | 0, text => text
  | rounds + 1, text =>
      if start.isPrefixOf text then trimStartMatches start rounds (text.drop start.length) else text

def s3HostFromEndpoint (endpoint : String) : String :=
  let withoutHttp := trimStartMatches "http://".toList endpoint.length endpoint.toList
  let withoutScheme := trimStartMatches "https://".toList endpoint.length withoutHttp
  trimEndSlashes (String.ofList withoutScheme)

example : s3HostFromEndpoint "http://localhost:8200/" = "localhost:8200" := by decide

def signedHeaders : String := "host;x-amz-content-sha256;x-amz-date"

section Sign

variable (libraries : ClientLibraries) (config : LakehouseConfig)

def emptyHash : String := libraries.crypto.hexDigest (utf8Bytes "")

def canonicalRequest (method canonicalUri host amzDate : String) : String :=
  method ++ "\n" ++ canonicalUri ++ "\n\nhost:" ++ host ++ "\nx-amz-content-sha256:" ++
    emptyHash libraries ++ "\nx-amz-date:" ++ amzDate ++ "\n\n" ++ signedHeaders ++ "\n" ++
    emptyHash libraries

def stringToSign (amzDate credentialScope canonicalRequest : String) : String :=
  "AWS4-HMAC-SHA256\n" ++ amzDate ++ "\n" ++ credentialScope ++ "\n" ++
    libraries.crypto.hexDigest (utf8Bytes canonicalRequest)

def signingKey (secretKey dateStamp region service : String) : List UInt8 :=
  let dateKey := libraries.hmacSha256 (utf8Bytes ("AWS4" ++ secretKey)) (utf8Bytes dateStamp)
  let regionKey := libraries.hmacSha256 dateKey (utf8Bytes region)
  let serviceKey := libraries.hmacSha256 regionKey (utf8Bytes service)
  libraries.hmacSha256 serviceKey (utf8Bytes "aws4_request")

def authorization (method canonicalUri host dateStamp amzDate : String) : String :=
  let service := "s3"
  let credentialScope := s3CredentialScope dateStamp config.s3Region service
  let text := stringToSign libraries amzDate credentialScope
    (canonicalRequest libraries method canonicalUri host amzDate)
  let key := signingKey libraries config.s3SecretKey dateStamp config.s3Region service
  let signature := toLowerHex (libraries.hmacSha256 key (utf8Bytes text))
  "AWS4-HMAC-SHA256 Credential=" ++ config.s3AccessKey ++ "/" ++ credentialScope ++
    ", SignedHeaders=" ++ signedHeaders ++ ", Signature=" ++ signature

def signedS3Request (instant : DateTime) (method url host canonicalUri : String) : HttpRequest where
  method := match method with
    | "HEAD" => .head
    | "PUT" => .put
    | _ => .get
  url := url
  headers :=
    let amzDate := libraries.amzDate instant
    [("Host", host), ("x-amz-date", amzDate), ("x-amz-content-sha256", emptyHash libraries),
      ("Authorization", authorization libraries config method canonicalUri host
        (libraries.dateStamp instant) amzDate)]

/-- Send an S3 request signed with AWS Signature V4 (empty body). -/
def sendSignedS3 (method url host canonicalUri : String) : Client HttpResponse := do
  let instant ← (Dialogue.query Call.now : Client DateTime)
  Client.send (signedS3Request libraries config instant method url host canonicalUri)

open Dialogue in
theorem yields_sendSignedS3 {World : Type} {answers : Answers World Call.Reply}
    {asks : World → Call → Prop} {failing : Prop} {post : HttpResponse → World → Prop}
    {method url host canonicalUri : String} {world : World} :
    Yields answers asks failing post
        (sendSignedS3 libraries config method url host canonicalUri) world ↔
      asks world .now ∧ ∀ instant read, answers world .now instant read →
        Yields answers asks failing post (Client.send (signedS3Request libraries config instant
          method url host canonicalUri)) read := by
  rw [sendSignedS3, yields_bind, yields_query]

end Sign

end AntiEntropator.Lakehouse
