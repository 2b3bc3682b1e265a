import DataBridge.Text

/-!
# Errors

The typed application error of the service, and the exceptions that reach the
code which translates them.
-/

namespace DataBridge

/-- `ErrorCode`: the stable codes of the service. -/
inductive ErrorCode
  | invalidRequest | invalidHostHeader | crossOriginRejected | invalidConnectionSettings
  | invalidFilename | sameFile | unsupportedPreviewFormat | malformedFile
  | previewLimitExceeded | connectionNotFound | fileNotFound | transferNotFound
  | routeNotFound | methodNotAllowed | connectionExists | destinationExists
  | destinationNotWritable | fileNotReadable | publishUnsupported | destinationFull
  | sftpAuthFailed | sftpHostKeyRejected | sftpOperationFailed | sftpUnavailable
  | connectionRootUnavailable | localIoError | sourceReadFailed | sourceChanged
  | destinationWriteFailed | transferCapacityExceeded | transferInternalError
  | transferStateConflict | transferRecordFailed | transferInterrupted | internalError
  deriving DecidableEq, Repr

/-- The text of a code. -/
def ErrorCode.value : ErrorCode → Text
  | .invalidRequest => lit "INVALID_REQUEST"
  | .invalidHostHeader => lit "INVALID_HOST_HEADER"
  | .crossOriginRejected => lit "CROSS_ORIGIN_REJECTED"
  | .invalidConnectionSettings => lit "INVALID_CONNECTION_SETTINGS"
  | .invalidFilename => lit "INVALID_FILENAME"
  | .sameFile => lit "SAME_FILE"
  | .unsupportedPreviewFormat => lit "UNSUPPORTED_PREVIEW_FORMAT"
  | .malformedFile => lit "MALFORMED_FILE"
  | .previewLimitExceeded => lit "PREVIEW_LIMIT_EXCEEDED"
  | .connectionNotFound => lit "CONNECTION_NOT_FOUND"
  | .fileNotFound => lit "FILE_NOT_FOUND"
  | .transferNotFound => lit "TRANSFER_NOT_FOUND"
  | .routeNotFound => lit "ROUTE_NOT_FOUND"
  | .methodNotAllowed => lit "METHOD_NOT_ALLOWED"
  | .connectionExists => lit "CONNECTION_EXISTS"
  | .destinationExists => lit "DESTINATION_EXISTS"
  | .destinationNotWritable => lit "DESTINATION_NOT_WRITABLE"
  | .fileNotReadable => lit "FILE_NOT_READABLE"
  | .publishUnsupported => lit "PUBLISH_UNSUPPORTED"
  | .destinationFull => lit "DESTINATION_FULL"
  | .sftpAuthFailed => lit "SFTP_AUTH_FAILED"
  | .sftpHostKeyRejected => lit "SFTP_HOST_KEY_REJECTED"
  | .sftpOperationFailed => lit "SFTP_OPERATION_FAILED"
  | .sftpUnavailable => lit "SFTP_UNAVAILABLE"
  | .connectionRootUnavailable => lit "CONNECTION_ROOT_UNAVAILABLE"
  | .localIoError => lit "LOCAL_IO_ERROR"
  | .sourceReadFailed => lit "SOURCE_READ_FAILED"
  | .sourceChanged => lit "SOURCE_CHANGED"
  | .destinationWriteFailed => lit "DESTINATION_WRITE_FAILED"
  | .transferCapacityExceeded => lit "TRANSFER_CAPACITY_EXCEEDED"
  | .transferInternalError => lit "TRANSFER_INTERNAL_ERROR"
  | .transferStateConflict => lit "TRANSFER_STATE_CONFLICT"
  | .transferRecordFailed => lit "TRANSFER_RECORD_FAILED"
  | .transferInterrupted => lit "TRANSFER_INTERRUPTED"
  | .internalError => lit "INTERNAL_ERROR"

/-- `_HTTP_STATUS`. -/
def ErrorCode.httpStatus : ErrorCode → Nat
  | .invalidRequest => 422
  | .invalidHostHeader => 400
  | .crossOriginRejected => 403
  | .invalidConnectionSettings => 400
  | .invalidFilename => 400
  | .sameFile => 400
  | .unsupportedPreviewFormat => 400
  | .malformedFile => 400
  | .previewLimitExceeded => 400
  | .connectionNotFound => 404
  | .fileNotFound => 404
  | .transferNotFound => 404
  | .routeNotFound => 404
  | .methodNotAllowed => 405
  | .connectionExists => 409
  | .destinationExists => 409
  | .destinationNotWritable => 409
  | .fileNotReadable => 409
  | .publishUnsupported => 409
  | .destinationFull => 507
  | .sftpAuthFailed => 502
  | .sftpHostKeyRejected => 502
  | .sftpOperationFailed => 502
  | .sftpUnavailable => 503
  | .connectionRootUnavailable => 503
  | .localIoError => 500
  | .sourceReadFailed => 500
  | .sourceChanged => 409
  | .destinationWriteFailed => 500
  | .transferCapacityExceeded => 503
  | .transferInternalError => 500
  | .transferStateConflict => 500
  | .transferRecordFailed => 500
  | .transferInterrupted => 500
  | .internalError => 500

/-- `DataBridgeError`. -/
structure DataBridgeError where
  code : ErrorCode
  message : Text
  transferId : Option Text := none
  deriving DecidableEq, Repr

/-- The values of `OSError.errno` that the source tells apart. -/
inductive Errno
  | EACCES | EPERM | EROFS | ENOSPC | EDQUOT | ENOENT | ENOTDIR | EEXIST | EISDIR
  | ENOTSUP | EXDEV | EMLINK | ELOOP | EINVAL
  | other (number : Nat)
  deriving DecidableEq, Repr

/-- The problem a `StartupError` names. -/
inductive StartupProblem
  | notADatabase | damaged | noSchemaVersion
  | otherSchemaVersion (stored : Bytes)
  | missingTables (names : List Text)
  | noKeyCheck | wrongKey
  deriving DecidableEq, Repr

/-- An exception (a subclass of `Exception`) on its way through the service. -/
inductive Exc
  /-- `DataBridgeError`. -/
  | dataBridge (error : DataBridgeError)
  /-- `_Status` of the SFTP connector, with its SFTP status code. -/
  | status (code : Nat)
  /-- paramiko's `SFTPError`: a packet that cannot be parsed. -/
  | sftpError
  /-- `OSError`, other than a timeout. -/
  | osError (errno : Errno)
  /-- `TimeoutError`, also an `OSError`. -/
  | timeout
  /-- `EOFError` or `paramiko.SSHException`. -/
  | transport
  | unicodeEncode
  | unicodeDecode
  | runtimeError
  | overflow
  /-- pydantic's `ValidationError`. -/
  | validation
  /-- `sqlite3.Error`, with its SQLite error name. -/
  | sqlite (name : Text)
  | startup (problem : StartupProblem)
  /-- Any other exception; the number tells them apart. -/
  | other (number : Nat)
  deriving DecidableEq, Repr

/-- `raise DataBridgeError(code, message)`. -/
abbrev Exc.ofCode (code : ErrorCode) (message : Text) : Exc := .dataBridge { code, message }

/-- `isinstance(e, OSError)`. -/
def Exc.isOSError : Exc → Bool
  | .osError _ => true
  | .timeout => true
  | _ => false

end DataBridge
